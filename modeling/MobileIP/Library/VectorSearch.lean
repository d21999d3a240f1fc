import Mathlib.Data.List.Basic
import Mathlib.Data.List.Perm.Basic
import Mathlib.Data.Multiset.ZeroCons
import Mathlib.Tactic.Common

/-! Linear searches over a vector and the updates made at the position that
they find. A search is specified by the split of the vector that it picks, so
that an update at the found index becomes an equation between appended lists. -/
namespace VectorSearch

variable {α : Type*}

/-- A loop that stops at the first element satisfying `p`, with its index. -/
def firstMatch (p : α → Bool) : List α → Option (ℕ × α)
  | [] => none
  | a :: l => if p a then some (0, a) else (firstMatch p l).map (fun r => (r.1+1, r.2))

/-- A loop that runs to the end and remembers the last index satisfying `p`. -/
def lastIndex (p : α → Bool) : List α → Option ℕ
  | [] => none
  | a :: l =>
    match lastIndex p l with
    | some i => some (i+1)
    | none => if p a then some 0 else none

/-- What the first match says about the vector. -/
theorem firstMatch_split (p : α → Bool) (l : List α) (i : ℕ) (x : α)
    (h : firstMatch p l = some (i, x)) :
    ∃ pre post, l = pre ++ x :: post ∧ pre.length = i ∧ p x = true ∧ ∀ y ∈ pre, p y = false := by
  induction l generalizing i with
  | nil => simp [firstMatch] at h
  | cons a l ih =>
    by_cases ha : p a = true
    · simp only [firstMatch, if_pos ha, Option.some.injEq, Prod.mk.injEq] at h
      obtain ⟨rfl, rfl⟩ := h
      exact ⟨[], l, rfl, rfl, ha, by simp⟩
    · simp only [firstMatch, if_neg ha, Option.map_eq_some_iff, Prod.mk.injEq] at h
      obtain ⟨⟨j, y⟩, hj, rfl, rfl⟩ := h
      obtain ⟨pre, post, rfl, hlen, hy, hpre⟩ := ih j hj
      refine ⟨a :: pre, post, rfl, by simp [hlen], hy, ?_⟩
      simpa [ha] using hpre

theorem firstMatch_getElem? (p : α → Bool) (l : List α) (i : ℕ) (x : α)
    (h : firstMatch p l = some (i, x)) : l[i]? = some x ∧ p x = true := by
  obtain ⟨pre, post, rfl, rfl, hx, -⟩ := firstMatch_split p l i x h
  refine ⟨?_, hx⟩
  rw [List.getElem?_append_right (Nat.le_refl _), Nat.sub_self]
  rfl

theorem firstMatch_append (p : α → Bool) (pre post : List α) (x : α) (hx : p x = true)
    (hpre : ∀ y ∈ pre, p y = false) : firstMatch p (pre ++ x :: post) = some (pre.length, x) := by
  induction pre with
  | nil => simp [firstMatch, hx]
  | cons a pre ih =>
    have ha : p a = false := hpre a (by simp)
    have ht := ih (fun y hy => hpre y (by simp [hy]))
    simp [firstMatch, ha, ht]

theorem firstMatch_append_iff (p : α → Bool) (pre post : List α) (x : α) :
    firstMatch p (pre ++ x :: post) = some (pre.length, x) ↔
      (∀ y ∈ pre, p y = false) ∧ p x = true := by
  constructor
  · intro h
    obtain ⟨pre', post', hl, hlen, hx, hpre⟩ := firstMatch_split p _ _ _ h
    rw [(List.append_inj hl hlen.symm).1]
    exact ⟨hpre, hx⟩
  · exact fun h => firstMatch_append p pre post x h.2 h.1

theorem firstMatch_eq_head_filter (p : α → Bool) (l : List α) :
    (firstMatch p l).map Prod.snd = (l.filter p).head? := by
  induction l with
  | nil => rfl
  | cons a l ih =>
    by_cases ha : p a = true
    · simp [firstMatch, ha]
    · simpa [firstMatch, ha, Function.comp_def] using ih

theorem firstMatch_eq_none_iff (p : α → Bool) (l : List α) :
    firstMatch p l = none ↔ ∀ x ∈ l, p x = false := by
  have hh := firstMatch_eq_head_filter p l
  rw [← Option.map_eq_none_iff, hh, List.head?_eq_none_iff, List.filter_eq_nil_iff]
  simp only [Bool.not_eq_true]

theorem firstMatch_map {β : Type*} (p : β → Bool) (f : α → β) (l : List α) :
    firstMatch p (l.map f) = (firstMatch (fun a => p (f a)) l).map (fun r => (r.1, f r.2)) := by
  induction l with
  | nil => rfl
  | cons a l ih =>
    rw [List.map_cons, firstMatch, firstMatch, ih]
    split_ifs
    · rfl
    · rw [Option.map_map, Option.map_map]
      rfl

theorem exists_firstMatch (p : α → Bool) (l : List α) (x : α) (hx : x ∈ l) (hp : p x = true) :
    ∃ i y, firstMatch p l = some (i, y) := by
  cases hm : firstMatch p l with
  | none =>
    have hnone := (firstMatch_eq_none_iff p l).mp hm x hx
    rw [hp] at hnone
    cases hnone
  | some found => exact ⟨found.1, found.2, rfl⟩

theorem lastIndex_eq_none_iff (p : α → Bool) (l : List α) :
    lastIndex p l = none ↔ ∀ x ∈ l, p x = false := by
  induction l with
  | nil => simp [lastIndex]
  | cons a l ih =>
    cases hl : lastIndex p l with
    | some i =>
      have hn : ¬ ∀ x ∈ l, p x = false := fun h => by simp [ih.mpr h] at hl
      simp only [lastIndex, hl, List.forall_mem_cons]
      simp only [reduceCtorEq, false_iff]
      exact fun h => hn h.2
    | none =>
      have hall := ih.mp hl
      simp only [lastIndex, hl, List.forall_mem_cons]
      simpa using fun _ => hall

theorem lastIndex_split (p : α → Bool) (l : List α) (i : ℕ) (h : lastIndex p l = some i) :
    ∃ pre x post, l = pre ++ x :: post ∧ pre.length = i ∧ p x = true := by
  induction l generalizing i with
  | nil => simp [lastIndex] at h
  | cons a l ih =>
    cases hl : lastIndex p l with
    | some j =>
      simp only [lastIndex, hl, Option.some.injEq] at h
      obtain ⟨pre, x, post, rfl, hlen, hx⟩ := ih j hl
      exact ⟨a :: pre, x, post, rfl, by simp [hlen, h], hx⟩
    | none =>
      simp only [lastIndex, hl, Option.ite_none_right_eq_some, Option.some.injEq] at h
      exact ⟨[], a, l, rfl, h.2, h.1⟩

theorem eraseIdx_split (pre post : List α) (x : α) :
    (pre ++ x :: post).eraseIdx pre.length = pre ++ post := by
  rw [List.eraseIdx_append_of_length_le (Nat.le_refl _)]
  simp

/-- A loop that erases the element at its index if it satisfies `p`, and otherwise moves on. -/
def eraseLoop (p : α → Bool) (l : List α) (i : ℕ) : List α :=
  if h : i < l.length then
    if p l[i] then eraseLoop p (l.eraseIdx i) i else eraseLoop p l (i+1)
  else l
termination_by l.length-i
decreasing_by
  · rw [List.length_eraseIdx_of_lt h]
    omega
  · omega

/-- What the loop has passed stays, and of the rest it keeps what does not satisfy `p`. -/
theorem eraseLoop_split (p : α → Bool) (pre l : List α) :
    eraseLoop p (pre ++ l) pre.length = pre ++ l.filter (fun x => !p x) := by
  induction l generalizing pre with
  | nil =>
    unfold eraseLoop
    simp
  | cons a l ih =>
    have hlt : pre.length < (pre ++ a :: l).length := by simp
    have hget : (pre ++ a :: l)[pre.length] = a := by simp
    rw [eraseLoop, dif_pos hlt, hget]
    cases ha : p a with
    | true =>
      rw [if_pos rfl, eraseIdx_split, ih, List.filter_cons_of_neg (by simp [ha])]
    | false =>
      have hnext := ih (pre ++ [a])
      rw [List.length_append, List.length_singleton, List.append_assoc] at hnext
      rw [if_neg Bool.false_ne_true, List.filter_cons_of_pos (by simp [ha])]
      rw [List.append_assoc] at hnext
      exact hnext

theorem eraseLoop_eq_filter (p : α → Bool) (l : List α) :
    eraseLoop p l 0 = l.filter (fun x => !p x) :=
  eraseLoop_split p [] l

/-- A search for the last match that starts from index 0, with an erasure at the index
found: it removes the matches and nothing else exactly if there is one match, or nothing
to erase. -/
theorem eraseIdx_lastIndex_eq_filter_iff (p : α → Bool) (l : List α) :
    l.eraseIdx ((lastIndex p l).getD 0) = l.filter (fun x => !p x) ↔ l.countP p = 1 ∨ l = [] := by
  cases hi : lastIndex p l with
  | none =>
    have hno := (lastIndex_eq_none_iff p l).mp hi
    have hcount : l.countP p = 0 := by
      rw [List.countP_eq_zero]
      intro x hx
      rw [hno x hx]
      exact Bool.false_ne_true
    have hfilter : l.filter (fun x => !p x) = l := by
      rw [List.filter_eq_self]
      intro x hx
      rw [hno x hx]
      rfl
    rw [Option.getD_none, hfilter, hcount]
    cases l with
    | nil => simp
    | cons a l => simp
  | some i =>
    obtain ⟨pre, x, post, rfl, rfl, hx⟩ := lastIndex_split p l i hi
    have hcount : (pre ++ x :: post).countP p = (pre ++ post).countP p+1 := by
      rw [List.countP_append, List.countP_append, List.countP_cons_of_pos hx]
      omega
    have hfilter : (pre ++ x :: post).filter (fun x => !p x) =
        (pre ++ post).filter (fun x => !p x) := by
      simp [hx]
    rw [Option.getD_some, eraseIdx_split, hfilter, hcount, eq_comm, List.filter_eq_self]
    have hne : ¬ pre ++ x :: post = [] := by simp
    have hzero : (pre ++ post).countP p+1 = 1 ↔ (pre ++ post).countP p = 0 := by omega
    rw [or_iff_left hne, hzero, List.countP_eq_zero]
    simp

/-- Erasing at two positions gives the same vector only if they hold the same element. -/
theorem eq_of_eraseIdx_eq (l : List α) (i j : ℕ) (x y : α) (hx : l[i]? = some x)
    (hy : l[j]? = some y) (h : l.eraseIdx i = l.eraseIdx j) : x = y := by
  obtain ⟨hi, rfl⟩ := List.getElem?_eq_some_iff.mp hx
  obtain ⟨hj, rfl⟩ := List.getElem?_eq_some_iff.mp hy
  have hpi := List.getElem_cons_eraseIdx_perm hi
  have hpj := List.getElem_cons_eraseIdx_perm hj
  rw [h] at hpi
  have hcons : l[i] ::ₘ (l.eraseIdx j : Multiset α) = l[j] ::ₘ (l.eraseIdx j : Multiset α) :=
    Multiset.coe_eq_coe.mpr (hpi.trans hpj.symm)
  exact (Multiset.cons_inj_left _).mp hcons

theorem getElem?_split (l : List α) (i : ℕ) (x : α) (h : l[i]? = some x) :
    ∃ pre post, l = pre ++ x :: post ∧ pre.length = i := by
  obtain ⟨hi, rfl⟩ := List.getElem?_eq_some_iff.mp h
  refine ⟨l.take i, l.drop (i+1), ?_, List.length_take_of_le hi.le⟩
  rw [← List.drop_eq_getElem_cons hi, List.take_append_drop]

/-- An association list has an entry for the keys that it lists. -/
theorem isSome_lookup_iff {κ β : Type*} [DecidableEq κ] (l : List (κ × β)) (k : κ) :
    (l.lookup k).isSome = true ↔ k ∈ l.map Prod.fst := by
  rw [List.lookup_isSome_iff, List.mem_map]
  simp only [beq_iff_eq]
  constructor
  · rintro ⟨x, hx, rfl⟩
    exact ⟨x, hx, rfl⟩
  · rintro ⟨x, hx, h⟩
    exact ⟨x, hx, h.symm⟩

/-- A new value under a key leaves the other keys alone. -/
theorem lookup_replace {κ β : Type*} [DecidableEq κ] (l : List (κ × β)) (key k : κ) (new : β) :
    (l.map (fun x => if x.1 = key then (x.1, new) else x)).lookup k =
      (l.lookup k).map (fun b => if k = key then new else b) := by
  induction l with
  | nil => rfl
  | cons x l ih =>
    obtain ⟨j, b⟩ := x
    have hx : (if j = key then (j, new) else (j, b)) = (j, if j = key then new else b) := by
      split_ifs
      · rfl
      · rfl
    rw [List.map_cons, hx, List.lookup_cons, List.lookup_cons]
    by_cases hk : k = j
    · rw [hk, beq_self_eq_true]
      rfl
    · have hne : (k == j) = false := by simpa using hk
      rw [hne]
      exact ih

theorem set_split (pre post : List α) (x y : α) :
    (pre ++ x :: post).set pre.length y = pre ++ y :: post := by
  rw [List.set_append_right _ _ (Nat.le_refl _)]
  simp

/-- Two loops that keep or drop each element and leave a mark of where a kept one came from
agree on a vector only if they agree on each of its elements. -/
theorem filterMap_eq_filterMap_iff {β : Type*} (f g : α → Option β) (origin : β → α) (l : List α)
    (hf : ∀ a ∈ l, ∀ b, f a = some b → origin b = a)
    (hg : ∀ a ∈ l, ∀ b, g a = some b → origin b = a) :
    l.filterMap f = l.filterMap g ↔ ∀ a ∈ l, f a = g a := by
  -- an element kept by one loop comes from the same place in the other
  have hkept : ∀ f g : α → Option β, (∀ a ∈ l, ∀ b, f a = some b → origin b = a) →
      (∀ a ∈ l, ∀ b, g a = some b → origin b = a) → l.filterMap f = l.filterMap g →
      ∀ a ∈ l, ∀ b, f a = some b → g a = some b := by
    intro f g hf hg h a ha b hb
    have hmem : b ∈ l.filterMap g := h ▸ List.mem_filterMap.mpr ⟨a, ha, hb⟩
    obtain ⟨a', ha', hb'⟩ := List.mem_filterMap.mp hmem
    rw [← hf a ha b hb, hg a' ha' b hb']
    exact hb'
  constructor
  · intro h a ha
    apply Option.ext
    intro b
    exact ⟨hkept f g hf hg h a ha b, hkept g f hg hf h.symm a ha b⟩
  · exact List.filterMap_congr

end VectorSearch
