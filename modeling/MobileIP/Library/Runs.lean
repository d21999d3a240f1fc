import Mathlib.Data.List.Induction
import Mathlib.Data.List.Pairwise
import Mathlib.Tactic.Common

/-! Runs of a machine that takes inputs one after another and gives outputs. The
rules derive a property of every state that a run reaches from one step. -/
namespace Runs

variable {σ ι ω : Type*} (step : σ → ι → σ × List ω)

def final : σ → List ι → σ
  | s, [] => s
  | s, i :: is => final (step s i).1 is

/-- The outputs that the inputs gave, in order. -/
def trace : σ → List ι → List ω
  | _, [] => []
  | s, i :: is => (step s i).2 ++ trace (step s i).1 is

/-- Every input meets `guard` in the state in which it arrives. -/
def Meets (guard : σ → ι → Prop) : σ → List ι → Prop
  | _, [] => True
  | s, i :: is => guard s i ∧ Meets guard (step s i).1 is

instance decidableMeets (guard : σ → ι → Prop) [hd : ∀ s i, Decidable (guard s i)] :
    (s : σ) → (is : List ι) → Decidable (Meets step guard s is)
  | _, [] => inferInstanceAs (Decidable True)
  | s, i :: is =>
    have := decidableMeets guard (step s i).1 is
    inferInstanceAs (Decidable (guard s i ∧ Meets step guard (step s i).1 is))

theorem final_append (s : σ) (is js : List ι) :
    final step s (is ++ js) = final step (final step s is) js := by
  induction is generalizing s with
  | nil => rfl
  | cons i is ih => exact ih (step s i).1

theorem trace_append (s : σ) (is js : List ι) :
    trace step s (is ++ js) = trace step s is ++ trace step (final step s is) js := by
  induction is generalizing s with
  | nil => rfl
  | cons i is ih => rw [List.cons_append, trace, trace, ih, List.append_assoc, final]

theorem final_concat (s : σ) (is : List ι) (i : ι) :
    final step s (is ++ [i]) = (step (final step s is) i).1 :=
  final_append step s is [i]

theorem trace_concat (s : σ) (is : List ι) (i : ι) :
    trace step s (is ++ [i]) = trace step s is ++ (step (final step s is) i).2 := by
  rw [trace_append]
  simp [trace]

theorem meets_concat (guard : σ → ι → Prop) (s : σ) (is : List ι) (i : ι) :
    Meets step guard s (is ++ [i]) ↔ Meets step guard s is ∧ guard (final step s is) i := by
  induction is generalizing s with
  | nil => simp [Meets, final]
  | cons j is ih => rw [List.cons_append, Meets, Meets, ih, final, and_assoc]

/-- Rule of invariants that speak of the inputs taken and the outputs given so far, for
runs in which every input meets a guard. -/
theorem guarded_history_invariant (guard : σ → ι → Prop) (s₀ : σ)
    (Inv : List ι → List ω → σ → Prop) (h₀ : Inv [] [] s₀)
    (hstep : ∀ is i, guard (final step s₀ is) i → Inv is (trace step s₀ is) (final step s₀ is) →
      Inv (is ++ [i]) (trace step s₀ is ++ (step (final step s₀ is) i).2)
        (step (final step s₀ is) i).1)
    (is : List ι) (hg : Meets step guard s₀ is) : Inv is (trace step s₀ is) (final step s₀ is) := by
  induction is using List.reverseRecOn with
  | nil => exact h₀
  | append_singleton is i ih =>
    have hg' := (meets_concat step guard s₀ is i).mp hg
    rw [trace_concat, final_concat]
    exact hstep is i hg'.2 (ih hg'.1)

theorem history_invariant (s₀ : σ) (Inv : List ι → List ω → σ → Prop) (h₀ : Inv [] [] s₀)
    (hstep : ∀ is i, Inv is (trace step s₀ is) (final step s₀ is) →
      Inv (is ++ [i]) (trace step s₀ is ++ (step (final step s₀ is) i).2)
        (step (final step s₀ is) i).1) (is : List ι) :
    Inv is (trace step s₀ is) (final step s₀ is) := by
  have hmeets : ∀ s, Meets step (fun _ _ => True) s is := by
    induction is with
    | nil => exact fun _ => trivial
    | cons i is ih => exact fun s => ⟨trivial, ih _⟩
  exact guarded_history_invariant step (fun _ _ => True) s₀ Inv h₀ (fun is i _ => hstep is i) is
    (hmeets s₀)

/-- A property that a step keeps exactly if the input meets the guard holds all along a
run exactly if every input meets it. -/
theorem meets_iff_invariant (guard : σ → ι → Prop) (Inv : σ → Prop)
    (hstep : ∀ s i, Inv s → (Inv (step s i).1 ↔ guard s i)) (s₀ : σ) (h₀ : Inv s₀) (is : List ι) :
    Meets step guard s₀ is ↔ ∀ js, js <+: is → Inv (final step s₀ js) := by
  induction is generalizing s₀ with
  | nil =>
    simp only [Meets, List.prefix_nil, forall_eq, true_iff]
    exact h₀
  | cons i is ih =>
    constructor
    · rintro ⟨hg, hrest⟩ js hjs
      have hnext := (hstep s₀ i h₀).mpr hg
      cases js with
      | nil => exact h₀
      | cons j js =>
        obtain ⟨rfl, htail⟩ := List.cons_prefix_cons.mp hjs
        exact (ih (step s₀ j).1 hnext).mp hrest js htail
    · intro hall
      have hnext : Inv (step s₀ i).1 := hall [i] (by simp)
      refine ⟨(hstep s₀ i h₀).mp hnext, (ih (step s₀ i).1 hnext).mpr ?_⟩
      intro js hjs
      exact hall (i :: js) (List.cons_prefix_cons.mpr ⟨rfl, hjs⟩)

/-- What each input of a kind was answered with, in order. -/
def answers (mine : ι → Bool) : σ → List ι → List (List ω)
  | _, [] => []
  | s, i :: is =>
    if mine i then (step s i).2 :: answers mine (step s i).1 is else answers mine (step s i).1 is

theorem answers_append (mine : ι → Bool) (s : σ) (is js : List ι) :
    answers step mine s (is ++ js) = answers step mine s is ++ answers step mine (final step s is) js := by
  induction is generalizing s with
  | nil => rfl
  | cons i is ih =>
    rw [List.cons_append, answers, answers, final]
    split_ifs
    · rw [ih, List.cons_append]
    · exact ih (step s i).1

theorem length_answers (s : σ) (is : List ι) :
    (answers step (fun _ => true) s is).length = is.length := by
  induction is generalizing s with
  | nil => rfl
  | cons i is ih => exact congrArg (·+1) (ih (step s i).1)

/-- The answer to an input is the one of the state that the inputs before it lead to. -/
theorem getElem?_answers (s : σ) (is : List ι) (k : ℕ) (i : ι) (h : is[k]? = some i) :
    (answers step (fun _ => true) s is)[k]? = some (step (final step s (is.take k)) i).2 := by
  obtain ⟨hk, rfl⟩ := List.getElem?_eq_some_iff.mp h
  have hlen : (answers step (fun _ => true) s (is.take k)).length = k := by
    rw [length_answers, List.length_take_of_le (Nat.le_of_lt hk)]
  have hsplit : is = is.take k ++ is[k] :: is.drop (k+1) := by
    rw [← List.drop_eq_getElem_cons hk, List.take_append_drop]
  conv_lhs => rw [hsplit]
  rw [answers_append, List.getElem?_append_right (Nat.le_of_eq hlen), hlen, Nat.sub_self]
  rfl

/-- Inputs of other kinds can be left out: they do not change the view of the state that
the kind has, and its own inputs are answered by that view alone. -/
theorem view_filter {ν : Type*} (mine : ι → Bool) (view : σ → ν)
    (hother : ∀ s i, mine i = false → view (step s i).1 = view s)
    (hmine : ∀ s t i, mine i = true → view s = view t →
      view (step s i).1 = view (step t i).1 ∧ (step s i).2 = (step t i).2)
    (s t : σ) (is : List ι) (h : view s = view t) :
    view (final step s is) = view (final step t (is.filter mine)) ∧
      answers step mine s is = answers step mine t (is.filter mine) := by
  induction is generalizing s t with
  | nil => exact ⟨h, rfl⟩
  | cons i is ih =>
    cases hi : mine i with
    | true =>
      obtain ⟨hview, hout⟩ := hmine s t i hi h
      have hrest := ih (step s i).1 (step t i).1 hview
      rw [List.filter_cons_of_pos hi, answers, answers, if_pos hi, if_pos hi, hout, hrest.2]
      exact ⟨hrest.1, rfl⟩
    | false =>
      have hview : view (step s i).1 = view t := (hother s i hi).trans h
      have hn : ¬ mine i = true := by rw [hi]; exact Bool.false_ne_true
      rw [List.filter_cons_of_neg hn, answers, if_neg hn]
      exact ih (step s i).1 t hview

/-- Two runs with the same inputs of a kind look the same to that kind. -/
theorem noninterference {ν : Type*} (mine : ι → Bool) (view : σ → ν)
    (hother : ∀ s i, mine i = false → view (step s i).1 = view s)
    (hmine : ∀ s t i, mine i = true → view s = view t →
      view (step s i).1 = view (step t i).1 ∧ (step s i).2 = (step t i).2)
    (s : σ) (is js : List ι) (h : is.filter mine = js.filter mine) :
    view (final step s is) = view (final step s js) ∧
      answers step mine s is = answers step mine s js := by
  have hi := view_filter step mine view hother hmine s s is rfl
  have hj := view_filter step mine view hother hmine s s js rfl
  rw [h] at hi
  exact ⟨hi.1.trans hj.1.symm, hi.2.trans hj.2.symm⟩

/-- Every output stands in the relation `P` to the outputs before it. -/
def Preceded (P : List ω → ω → Prop) (os : List ω) : Prop :=
  ∀ before o after, os = before ++ o :: after → P before o

theorem preceded_nil (P : List ω → ω → Prop) : Preceded P [] := by
  intro before o after h
  simp at h

theorem Preceded.concat {P : List ω → ω → Prop} {os : List ω} (h : Preceded P os) (o : ω)
    (ho : P os o) : Preceded P (os ++ [o]) := by
  intro before x after hx
  rcases List.eq_nil_or_concat after with rfl | ⟨after', y, rfl⟩
  · obtain ⟨rfl, hox⟩ := List.append_inj' hx rfl
    rw [← (List.cons.inj hox).1]
    exact ho
  · rw [List.concat_eq_append, ← List.cons_append, ← List.append_assoc] at hx
    exact h before x after' (List.append_inj' hx rfl).1

theorem Preceded.append {P : List ω → ω → Prop} {os : List ω} (h : Preceded P os) (new : List ω)
    (hnew : ∀ o ∈ new, ∀ before, P before o) : Preceded P (os ++ new) := by
  induction new generalizing os with
  | nil => simpa using h
  | cons o new ih =>
    rw [List.append_cons]
    exact ih (h.concat o (hnew o List.mem_cons_self os))
      (fun x hx => hnew x (List.mem_cons_of_mem o hx))

/-- An observation that no two outputs share identifies the output. -/
theorem eq_of_nodup_filterMap {β : Type*} (f : ω → Option β) (os : List ω)
    (hn : (os.filterMap f).Nodup) (o o' : ω) (ho : o ∈ os) (ho' : o' ∈ os) (b : β)
    (hf : f o = some b) (hf' : f o' = some b) : o = o' := by
  rw [List.Nodup, List.pairwise_filterMap] at hn
  by_contra hne
  have hsymm : Std.Symm (fun a a' => ∀ b, f a = some b → ∀ b', f a' = some b' → b ≠ b') :=
    ⟨fun a a' h b hb b' hb' => (h b' hb' b hb).symm⟩
  exact hn.forall ho ho' hne b hf b hf' rfl

/-- The last output of a kind splits the run: none of the kind follows it. -/
theorem getLast?_filterMap_eq_some_iff {β : Type*} (f : ω → Option β) (os : List ω) (b : β) :
    (os.filterMap f).getLast? = some b ↔
      ∃ before o after, os = before ++ o :: after ∧ f o = some b ∧ ∀ x ∈ after, f x = none := by
  rw [List.getLast?_eq_some_iff]
  constructor
  · rintro ⟨bs, hbs⟩
    obtain ⟨before, rest, rfl, -, hrest⟩ := List.filterMap_eq_append_iff.mp hbs
    obtain ⟨skipped, o, after, rfl, -, ho, hafter⟩ := List.filterMap_eq_cons_iff.mp hrest
    refine ⟨before ++ skipped, o, after, by rw [List.append_assoc], ho, ?_⟩
    exact List.filterMap_eq_nil_iff.mp hafter
  · rintro ⟨before, o, after, rfl, ho, hafter⟩
    refine ⟨before.filterMap f, ?_⟩
    rw [List.filterMap_append, List.filterMap_cons_some ho, List.filterMap_eq_nil_iff.mpr hafter]

end Runs
