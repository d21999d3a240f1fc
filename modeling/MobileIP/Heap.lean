import Mathlib.Data.Int.Order.Basic
import Mathlib.Data.List.Basic
import Mathlib.Logic.Function.Basic
import Mathlib.Order.Basic

/-! Heaps of any arity above two in a vector. The first element has one child less than the
others, so that the parent of an element is at its index over the arity. An element that moves is
told its new place. -/
namespace MobileIP

namespace Heap

variable {α P : Type} [Inhabited α]

/-- `begin[i]`. -/
def get (h : List α) (i : ℕ) : α := h.getD i default

/-- `click_swap(begin[i], begin[j])`. -/
def swap (h : List α) (i j : ℕ) : List α := (h.set i (get h j)).set j (get h i)

/-- The elements, and what `place` keeps track of. -/
structure State (α P : Type) where
  h : List α
  p : P

variable (arity : ℕ) (less : α → α → Bool) (place : P → α → ℕ → P)

/-- A swap, and `place` for the element that comes to `i`. -/
def moveTo (s : State α P) (i j : ℕ) : State α P :=
  let h := swap s.h i j
  ⟨h, place s.p (get h i) i⟩

/-- The first loop of `change_heap`. The index is enough fuel. -/
def siftUp : ℕ → State α P → ℕ → State α P × ℕ
  | 0, s, i => (s, i)
  | fuel+1, s, i =>
    if 0 < i ∧ less (get s.h i) (get s.h (i/arity)) then
      siftUp fuel (moveTo place s i (i/arity)) (i/arity)
    else (s, i)

/-- The loop over the trials. -/
def smallest (h : List α) : ℕ → ℕ → ℕ → ℕ
  | 0, _, m => m
  | n+1, trial, m => smallest h n (trial+1) (if less (get h trial) (get h m) then trial else m)

def firstTrial (i : ℕ) : ℕ := if i = 0 then 1 else i*arity

def endTrial (i : ℕ) : ℕ := if i = 0 then arity else i*arity+arity

/-- The second loop of `change_heap`. The size is enough fuel. -/
def siftDown : ℕ → State α P → ℕ → State α P × ℕ
  | 0, s, i => (s, i)
  | fuel+1, s, i =>
    let m := smallest less s.h (min (endTrial arity i) s.h.length-firstTrial arity i) (firstTrial arity i) i
    if m = i then (s, i) else siftDown fuel (moveTo place s i m) m

/-- `change_heap`, with the new place of the element. -/
def changeHeap (s : State α P) (element : ℕ) : State α P × ℕ :=
  let up := siftUp arity less place element s element
  let down := siftDown arity less place s.h.length up.1 up.2
  if down.2 ≠ element then (⟨down.1.h, place down.1.p (get down.1.h down.2) down.2⟩, down.2) else down

/-- `remove_heap`: the element comes to the end, and is no longer placed. -/
def removeHeap (s : State α P) (element : ℕ) : State α P :=
  if element+1 ≠ s.h.length then
    let h := swap s.h element (s.h.length-1)
    let r := (changeHeap arity less place ⟨h.dropLast, place s.p (get h element) element⟩ element).1
    ⟨r.h ++ [get h (s.h.length-1)], r.p⟩
  else s

theorem length_swap (h : List α) (i j : ℕ) : (swap h i j).length = h.length := by
  unfold swap
  rw [List.length_set, List.length_set]

theorem get_swap (h : List α) {i j : ℕ} (hi : i < h.length) (hj : j < h.length) (k : ℕ) :
    get (swap h i j) k = if k = j then get h i else if k = i then get h j else get h k := by
  unfold get swap
  rw [List.getD_eq_getElem?_getD, List.getElem?_set, List.length_set, List.getElem?_set]
  by_cases hkj : k = j
  · rw [if_pos hkj.symm, if_pos hj, if_pos hkj]
    rfl
  · rw [if_neg (fun he => hkj he.symm), if_neg hkj]
    by_cases hki : k = i
    · rw [if_pos hki.symm, if_pos hi, if_pos hki]
      rfl
    · rw [if_neg (fun he => hki he.symm), if_neg hki, ← List.getD_eq_getElem?_getD]

theorem get_eq_getElem (h : List α) {i : ℕ} (hi : i < h.length) : get h i = h[i] := by
  unfold get
  rw [List.getD_eq_getElem?_getD, List.getElem?_eq_getElem hi, Option.getD_some]

theorem get_mem (h : List α) {i : ℕ} (hi : i < h.length) : get h i ∈ h := by
  rw [get_eq_getElem h hi]
  exact List.getElem_mem hi

theorem exists_get {h : List α} {a : α} (ha : a ∈ h) : ∃ i < h.length, get h i = a := by
  obtain ⟨i, hi, heq⟩ := List.getElem_of_mem ha
  exact ⟨i, hi, by rw [get_eq_getElem h hi]; exact heq⟩

theorem get_append_left (h l : List α) {k : ℕ} (hk : k < h.length) : get (h ++ l) k = get h k := by
  unfold get
  rw [List.getD_eq_getElem?_getD, List.getElem?_append_left hk, ← List.getD_eq_getElem?_getD]

theorem get_concat (h : List α) (a : α) : get (h ++ [a]) h.length = a := by
  unfold get
  rw [List.getD_eq_getElem?_getD, List.getElem?_concat_length, Option.getD_some]

theorem get_set_self (h : List α) (a : α) {k : ℕ} (hk : k < h.length) : get (h.set k a) k = a := by
  unfold get
  rw [List.getD_eq_getElem?_getD, List.getElem?_set_self hk, Option.getD_some]

theorem get_set_of_ne (h : List α) (a : α) {j k : ℕ} (hk : k ≠ j) : get (h.set j a) k = get h k := by
  unfold get
  rw [List.getD_eq_getElem?_getD, List.getElem?_set_ne (fun he => hk he.symm),
    ← List.getD_eq_getElem?_getD]

theorem swap_perm (h : List α) {i j : ℕ} (hi : i < h.length) (hj : j < h.length) : (swap h i j).Perm h := by
  unfold swap
  rw [get_eq_getElem h hi, get_eq_getElem h hj]
  exact List.set_set_perm hi hj

/-- The comparisons that the functions are made for. -/
structure Order (less : α → α → Bool) : Prop where
  asymm : ∀ a b, less a b = true → less b a = false
  trans : ∀ a b c, less b a = false → less c b = false → less c a = false

/-- No element comes before its parent. -/
def Ordered (h : List α) : Prop :=
  ∀ c < h.length, 0 < c → less (get h c) (get h (c/arity)) = false

/-- A heap but for the element at `i`, which may be too small or too large. -/
structure OrderedBut (h : List α) (i : ℕ) : Prop where
  others : ∀ c < h.length, 0 < c → c ≠ i → c/arity ≠ i → less (get h c) (get h (c/arity)) = false
  grand : 0 < i → ∀ c < h.length, 0 < c → c/arity = i → less (get h c) (get h (i/arity)) = false

variable {arity less} {h : List α} {i : ℕ}

omit [Inhabited α] in
theorem Order.refl (ho : Order less) (a : α) : less a a = false := by
  cases h : less a a with
  | false => rfl
  | true => rw [← ho.asymm a a h, h]

theorem parent_lt (ha : 2 < arity) (hi : 0 < i) : i/arity < i := Nat.div_lt_self hi (by omega)

/-- The children of an element are the trials. -/
theorem child_iff (ha : 2 < arity) (c : ℕ) (hc : 0 < c) :
    c/arity = i ↔ firstTrial arity i ≤ c ∧ c < endTrial arity i := by
  unfold firstTrial endTrial
  rw [Nat.div_eq_iff (by omega)]
  split_ifs with h0
  · rw [h0, Nat.zero_mul]
    omega
  · omega

theorem OrderedBut.ordered (he : OrderedBut arity less h i)
    (hup : 0 < i → less (get h i) (get h (i/arity)) = false)
    (hdown : ∀ c < h.length, 0 < c → c/arity = i → less (get h c) (get h i) = false) :
    Ordered arity less h := by
  intro c hc h0
  by_cases hci : c = i
  · rw [hci]
    exact hup (by omega)
  by_cases hp : c/arity = i
  · rw [hp]
    exact hdown c hc h0 hp
  · exact he.others c hc h0 hci hp

/-- A step up: what was the parent is not too small for the place of its child. -/
theorem OrderedBut.swap_up (ho : Order less) (ha : 2 < arity) (he : OrderedBut arity less h i) (hi : i < h.length)
    (h0 : 0 < i) : OrderedBut arity less (swap h i (i/arity)) (i/arity) := by
  have hlt := parent_lt ha h0
  have hget := get_swap h hi (Nat.lt_trans hlt hi)
  -- the parent was in order with its own parent
  have hparent : 0 < i/arity → less (get h (i/arity)) (get h (i/arity/arity)) = false := by
    intro hp0
    have := parent_lt ha hp0
    exact he.others (i/arity) (Nat.lt_trans hlt hi) hp0 (by omega) (by omega)
  constructor
  · intro c hc hc0 hci hcp
    rw [length_swap] at hc
    have hne : c ≠ i := by
      rintro rfl
      exact hcp rfl
    rw [hget c, hget (c/arity), if_neg hci, if_neg hne, if_neg hcp]
    split_ifs with hpi
    · exact he.grand h0 c hc hc0 hpi
    · exact he.others c hc hc0 hne hpi
  · intro hp0 c hc hc0 hcp
    rw [length_swap] at hc
    have hpp := parent_lt ha hp0
    have hcp' : c ≠ i/arity := by
      intro heq
      have := parent_lt ha hc0
      omega
    have hpp₁ : i/arity/arity ≠ i/arity := by omega
    have hpp₂ : i/arity/arity ≠ i := by omega
    rw [hget c, hget (i/arity/arity), if_neg hcp', if_neg hpp₁, if_neg hpp₂]
    by_cases hci : c = i
    · rw [if_pos hci]
      exact hparent hp0
    · have hc' := he.others c hc hc0 hci (by omega)
      rw [hcp] at hc'
      rw [if_neg hci]
      exact ho.trans _ _ _ (hparent hp0) hc'

theorem siftUp_spec (ho : Order less) (ha : 2 < arity) (fuel : ℕ) (s : State α P) (i : ℕ) (hfuel : i ≤ fuel)
    (hi : i < s.h.length) (he : OrderedBut arity less s.h i) :
    let r := siftUp arity less place fuel s i
    OrderedBut arity less r.1.h r.2 ∧ r.2 < r.1.h.length ∧
      (0 < r.2 → less (get r.1.h r.2) (get r.1.h (r.2/arity)) = false) := by
  induction fuel generalizing s i with
  | zero => exact ⟨he, hi, fun h0 => absurd h0 (Nat.not_lt.mpr hfuel)⟩
  | succ fuel ih =>
    rw [siftUp]
    split_ifs with hup
    · have hlt := parent_lt ha hup.1
      refine ih (moveTo place s i (i/arity)) (i/arity) (by omega) ?_ (he.swap_up ho ha hi hup.1)
      unfold moveTo
      dsimp only
      rw [length_swap]
      omega
    · refine ⟨he, hi, fun h0 => ?_⟩
      by_contra hless
      exact hup ⟨h0, by simpa using hless⟩

theorem smallest_spec (ho : Order less) (h : List α) (n trial m : ℕ) :
    let r := smallest less h n trial m
    less (get h m) (get h r) = false ∧ (∀ c, trial ≤ c → c < trial+n → less (get h c) (get h r) = false) ∧
      (r = m ∨ (less (get h r) (get h m) = true ∧ trial ≤ r ∧ r < trial+n)) := by
  induction n generalizing trial m with
  | zero => exact ⟨ho.refl _, fun c h1 h2 => by omega, Or.inl rfl⟩
  | succ n ih =>
    rw [smallest]
    obtain ⟨hm, hall, hwhich⟩ := ih (trial+1) (if less (get h trial) (get h m) then trial else m)
    generalize smallest less h n (trial+1) (if less (get h trial) (get h m) then trial else m) = r at *
    by_cases hlt : less (get h trial) (get h m) = true
    · rw [if_pos hlt] at hm hwhich
      have hr : less (get h m) (get h r) = false := ho.trans _ _ _ hm (ho.asymm _ _ hlt)
      refine ⟨hr, ?_, Or.inr ?_⟩
      · intro c h1 h2
        by_cases hc : c = trial
        · rw [hc]
          exact hm
        · exact hall c (by omega) (by omega)
      · rcases hwhich with rfl | ⟨hless, h1, h2⟩
        · exact ⟨hlt, by omega, by omega⟩
        · refine ⟨?_, by omega, by omega⟩
          by_contra hno
          rw [Bool.not_eq_true] at hno
          rw [ho.trans _ _ _ (ho.asymm _ _ hlt) hno] at hless
          cases hless
    · rw [if_neg hlt] at hm hwhich
      rw [Bool.not_eq_true] at hlt
      refine ⟨hm, ?_, ?_⟩
      · intro c h1 h2
        by_cases hc : c = trial
        · rw [hc]
          exact ho.trans _ _ _ hm hlt
        · exact hall c (by omega) (by omega)
      · rcases hwhich with heq | ⟨hless, h1, h2⟩
        · exact Or.inl heq
        · exact Or.inr ⟨hless, by omega, by omega⟩

/-- A step down: the smallest child is not too large for the place of its parent. -/
theorem OrderedBut.swap_down (ha : 2 < arity) (he : OrderedBut arity less h i) {m : ℕ} (hm : m < h.length)
    (hm0 : 0 < m) (hmi : m/arity = i)
    (hall : ∀ c < h.length, 0 < c → c/arity = i → less (get h c) (get h m) = false) :
    OrderedBut arity less (swap h i m) m := by
  have hlt : i < m := by
    rw [← hmi]
    exact parent_lt ha hm0
  have hget := get_swap h (Nat.lt_trans hlt hm) hm
  constructor
  · intro c hc hc0 hcm hcp
    rw [length_swap] at hc
    rw [hget c, hget (c/arity), if_neg hcm, if_neg hcp]
    by_cases hci : c = i
    · -- the child comes below the parent of its parent
      have hp := parent_lt ha hc0
      rw [if_pos hci, if_neg (by omega), hci]
      exact he.grand (by omega) m hm hm0 hmi
    · rw [if_neg hci]
      by_cases hpi : c/arity = i
      · rw [if_pos hpi]
        exact hall c hc hc0 hpi
      · rw [if_neg hpi]
        exact he.others c hc hc0 hci hpi
  · intro _ c hc hc0 hcm
    rw [length_swap] at hc
    have hp := parent_lt ha hc0
    rw [hget c, hget (m/arity), if_neg (by omega), if_neg (by omega), if_neg (by omega), if_pos hmi, ← hcm]
    exact he.others c hc hc0 (by omega) (by omega)

theorem siftDown_spec (ho : Order less) (ha : 2 < arity) (fuel : ℕ) (s : State α P) (i : ℕ)
    (hfuel : s.h.length ≤ i+fuel) (hi : i < s.h.length) (he : OrderedBut arity less s.h i)
    (hup : 0 < i → less (get s.h i) (get s.h (i/arity)) = false) :
    Ordered arity less (siftDown arity less place fuel s i).1.h := by
  induction fuel generalizing s i with
  | zero => omega
  | succ fuel ih =>
    rw [siftDown]
    obtain ⟨hself, hall, hwhich⟩ := smallest_spec ho s.h
      (min (endTrial arity i) s.h.length-firstTrial arity i) (firstTrial arity i) i
    generalize smallest less s.h (min (endTrial arity i) s.h.length-firstTrial arity i)
      (firstTrial arity i) i = m at *
    have hchildren : ∀ c < s.h.length, 0 < c → c/arity = i → less (get s.h c) (get s.h m) = false := by
      intro c hc hc0 hci
      have htrial := (child_iff ha c hc0).mp hci
      exact hall c htrial.1 (by omega)
    by_cases hmi : m = i
    · rw [if_pos hmi]
      rw [hmi] at hchildren
      exact he.ordered hup hchildren
    · rw [if_neg hmi]
      obtain ⟨hless, h1, h2⟩ := hwhich.resolve_left hmi
      have hm : m < s.h.length := by omega
      have hm0 : 0 < m := by
        unfold firstTrial at h1
        split_ifs at h1 with h0
        · omega
        · exact Nat.lt_of_lt_of_le (Nat.mul_pos (by omega) (by omega)) h1
      have hparent : m/arity = i := (child_iff ha m hm0).mpr ⟨h1, by omega⟩
      have hlt := parent_lt ha hm0
      have hlen : (moveTo place s i m).h.length = s.h.length := length_swap s.h i m
      refine ih (moveTo place s i m) m (by omega) (by omega)
        (he.swap_down ha hm hm0 hparent hchildren) ?_
      intro _
      have hget := get_swap s.h hi hm
      change less (get (swap s.h i m) m) (get (swap s.h i m) (m/arity)) = false
      rw [hget m, hget (m/arity), if_pos rfl, if_neg (by omega), if_pos hparent]
      exact ho.asymm _ _ hless

/-- `place` for elements that keep their place, counted from one, under a key of theirs. -/
def tell {ι : Type} [DecidableEq ι] (key : α → ι) (p : ι → ℤ) (a : α) (i : ℕ) : ι → ℤ :=
  Function.update p (key a) (i+1)

section Places

variable {ι : Type} [DecidableEq ι] (key : α → ι)

/-- Every element knows its place. -/
def Tracked (s : State α (ι → ℤ)) : Prop := ∀ i < s.h.length, s.p (key (get s.h i)) = i+1

/-- An element on its way from `element`, now at `i`: it does not know, but all others do. -/
structure Moving (s₀ s : State α (ι → ℤ)) (element i : ℕ) : Prop where
  perm : s.h.Perm s₀.h
  lt : i < s.h.length
  here : get s.h i = get s₀.h element
  stale : s.p (key (get s.h i)) = element+1
  others : ∀ j < s.h.length, j ≠ i →
    s.p (key (get s.h j)) = j+1 ∧ key (get s.h j) ≠ key (get s.h i)
  frame : ∀ t, (∀ a ∈ s₀.h, key a ≠ t) → s.p t = s₀.p t

variable {key} {s s₀ : State α (ι → ℤ)} {element : ℕ}

omit [DecidableEq ι] in
theorem Tracked.key_inj (ht : Tracked key s) {i j : ℕ} (hi : i < s.h.length) (hj : j < s.h.length)
    (h : key (get s.h i) = key (get s.h j)) : i = j := by
  have h1 := ht i hi
  have h2 := ht j hj
  rw [h] at h1
  omega

omit [DecidableEq ι] in
theorem Tracked.pos_of_mem (ht : Tracked key s) {a : α} (ha : a ∈ s.h) : 0 < s.p (key a) := by
  obtain ⟨j, hj, hget⟩ := exists_get ha
  have hp := ht j hj
  rw [hget] at hp
  omega

omit [DecidableEq ι] in
theorem Tracked.moving (ht : Tracked key s) (hi : i < s.h.length) : Moving key s s i i where
  perm := List.Perm.refl _
  lt := hi
  here := rfl
  stale := ht i hi
  others := fun j hj hne => ⟨ht j hj, fun heq => hne (ht.key_inj hj hi heq)⟩
  frame := fun _ _ => rfl

theorem Moving.moveTo (hm : Moving key s₀ s element i) {j : ℕ} (hj : j < s.h.length) (hne : j ≠ i) :
    Moving key s₀ (moveTo (tell key) s i j) element j := by
  have hget := get_swap s.h hm.lt hj
  have hi : get (swap s.h i j) i = get s.h j := by
    rw [hget i, if_neg (fun he => hne he.symm), if_pos rfl]
  have hj' : get (swap s.h i j) j = get s.h i := by rw [hget j, if_pos rfl]
  obtain ⟨hjp, hjx⟩ := hm.others j hj hne
  unfold Heap.moveTo tell
  dsimp only
  rw [hi]
  constructor
  · exact (swap_perm s.h hm.lt hj).trans hm.perm
  · rw [length_swap]
    exact hj
  · rw [hj']
    exact hm.here
  · dsimp only
    rw [hj', Function.update_of_ne (fun he => hjx he.symm)]
    exact hm.stale
  · intro k hk hkj
    rw [length_swap] at hk
    dsimp only
    rw [hj']
    by_cases hki : k = i
    · rw [hki, hi, Function.update_self]
      exact ⟨rfl, hjx⟩
    · obtain ⟨hkp, hkx⟩ := hm.others k hk hki
      have hkey : key (get s.h k) ≠ key (get s.h j) := by
        intro heq
        rw [heq] at hkp
        omega
      rw [hget k, if_neg hkj, if_neg hki, Function.update_of_ne hkey]
      exact ⟨hkp, hkx⟩
  · intro t ht
    have hmem := ht (get s.h j) (hm.perm.subset (get_mem s.h hj))
    dsimp only
    rw [Function.update_of_ne (fun he => hmem he.symm)]
    exact hm.frame t ht

variable (arity less) in
theorem siftUp_moving (ha : 2 < arity) (fuel : ℕ) (s : State α (ι → ℤ)) (i : ℕ)
    (hm : Moving key s₀ s element i) :
    let r := siftUp arity less (tell key) fuel s i
    Moving key s₀ r.1 element r.2 := by
  induction fuel generalizing s i with
  | zero => exact hm
  | succ fuel ih =>
    rw [siftUp]
    split_ifs with hup
    · have hlt := parent_lt ha hup.1
      exact ih _ _ (hm.moveTo (Nat.lt_trans hlt hm.lt) (Nat.ne_of_lt hlt))
    · exact hm

variable (arity) in
theorem siftDown_moving (ho : Order less) (fuel : ℕ) (s : State α (ι → ℤ)) (i : ℕ)
    (hm : Moving key s₀ s element i) :
    let r := siftDown arity less (tell key) fuel s i
    Moving key s₀ r.1 element r.2 := by
  induction fuel generalizing s i with
  | zero => exact hm
  | succ fuel ih =>
    rw [siftDown]
    obtain ⟨-, -, hwhich⟩ := smallest_spec ho s.h
      (min (endTrial arity i) s.h.length-firstTrial arity i) (firstTrial arity i) i
    dsimp only
    generalize smallest less s.h (min (endTrial arity i) s.h.length-firstTrial arity i)
      (firstTrial arity i) i = m at *
    split_ifs with hmi
    · exact hm
    · obtain ⟨-, -, h2⟩ := hwhich.resolve_left hmi
      exact ih _ _ (hm.moveTo (by omega) hmi)

/-- The element has arrived and is told. -/
theorem Moving.tracked (hm : Moving key s₀ s element i) :
    Tracked key ⟨s.h, tell key s.p (get s.h i) i⟩ := by
  intro j hj
  unfold tell
  dsimp only at hj ⊢
  by_cases hji : j = i
  · rw [hji, Function.update_self]
  · obtain ⟨hjp, hjx⟩ := hm.others j hj hji
    rw [Function.update_of_ne hjx]
    exact hjp

/-- `change_heap` mends a heap in which one element is out of place: the elements are the same, they
are in order, and all of them know where they are. -/
theorem changeHeap_spec (ho : Order less) (ha : 2 < arity) (s : State α (ι → ℤ)) (element : ℕ)
    (ht : Tracked key s) (hi : element < s.h.length) (he : OrderedBut arity less s.h element) :
    let r := (changeHeap arity less (tell key) s element).1
    Ordered arity less r.h ∧ Tracked key r ∧ r.h.Perm s.h ∧
      ∀ t, (∀ a ∈ s.h, key a ≠ t) → r.p t = s.p t := by
  have hup := siftUp_moving arity less ha element s element (ht.moving hi)
  have hmoving := siftDown_moving arity ho s.h.length _ _ hup
  obtain ⟨hbut, hlt, hmin⟩ := siftUp_spec (tell key) ho ha element s element (Nat.le_refl _) hi he
  have hlen := hup.perm.length_eq
  have hordered := siftDown_spec (tell key) ho ha s.h.length _ _ (by omega) hlt hbut hmin
  unfold changeHeap
  dsimp only
  generalize siftUp arity less (tell key) element s element = up at *
  generalize siftDown arity less (tell key) s.h.length up.1 up.2 = down at *
  split_ifs with hmoved
  · refine ⟨hordered, hmoving.tracked, hmoving.perm, ?_⟩
    intro t hout
    have hself : t ≠ key (get down.1.h down.2) :=
      fun heq => hout _ (hmoving.perm.subset (get_mem _ hmoving.lt)) heq.symm
    exact (Function.update_of_ne hself _ _).trans (hmoving.frame t hout)
  · -- it is back where it was, or has never left, and so its place is the one that it knows
    rw [not_not] at hmoved
    have hsame : tell key down.1.p (get down.1.h down.2) down.2 = down.1.p := by
      have hstale := hmoving.stale
      rw [← hmoved] at hstale
      unfold tell
      rw [← hstale, Function.update_eq_self]
    have htracked := hmoving.tracked
    rw [hsame] at htracked
    exact ⟨hordered, htracked, hmoving.perm, hmoving.frame⟩

theorem get_dropLast (h : List α) {k : ℕ} (hk : k+1 < h.length) : get h.dropLast k = get h k := by
  unfold get
  rw [List.getD_eq_getElem?_getD, List.getElem?_dropLast, if_pos (by omega), ← List.getD_eq_getElem?_getD]

theorem dropLast_concat_get (h : List α) (hne : 0 < h.length) :
    h.dropLast ++ [get h (h.length-1)] = h := by
  have hnil : h ≠ [] := List.length_pos_iff.mp hne
  rw [get_eq_getElem h (by omega), ← List.getLast_eq_getElem hnil, List.dropLast_append_getLast hnil]

/-- What is left of a heap with its last element in the place of another. -/
theorem Ordered.replaced (ho : Order less) (ha : 2 < arity) (hord : Ordered arity less h)
    (hi : i+1 < h.length) : OrderedBut arity less (swap h i (h.length-1)).dropLast i := by
  have hget := get_swap h (show i < h.length by omega) (show h.length-1 < h.length by omega)
  have hlen : (swap h i (h.length-1)).length = h.length := length_swap h i (h.length-1)
  have hold (k : ℕ) (hk : k+1 < h.length) (hne : k ≠ i) :
      get (swap h i (h.length-1)).dropLast k = get h k := by
    rw [get_dropLast _ (by omega), hget k, if_neg (by omega), if_neg hne]
  constructor
  · intro c hc hc0 hci hcp
    rw [List.length_dropLast, hlen] at hc
    have hlt := parent_lt ha hc0
    rw [hold c (by omega) hci, hold (c/arity) (by omega) hcp]
    exact hord c (by omega) hc0
  · intro hi0 c hc hc0 hci
    rw [List.length_dropLast, hlen] at hc
    have hlt := parent_lt ha hc0
    have hlt' := parent_lt ha hi0
    rw [hold c (by omega) (by omega), hold (i/arity) (by omega) (by omega)]
    have hchild := hord c (by omega) hc0
    rw [hci] at hchild
    exact ho.trans _ _ _ (hord i (by omega) hi0) hchild

/-- `remove_heap` and `pop_back`: the other elements are a heap, and know where they are. -/
theorem removeHeap_spec (ho : Order less) (ha : 2 < arity) (s : State α (ι → ℤ)) (element : ℕ)
    (ht : Tracked key s) (hord : Ordered arity less s.h) (hi : element < s.h.length) :
    let r := removeHeap arity less (tell key) s element
    Ordered arity less r.h.dropLast ∧ Tracked key ⟨r.h.dropLast, r.p⟩ ∧
      (get s.h element :: r.h.dropLast).Perm s.h ∧ ∀ t, (∀ a ∈ s.h, key a ≠ t) → r.p t = s.p t := by
  unfold removeHeap
  by_cases hlast : element+1 ≠ s.h.length
  · rw [if_pos hlast]
    dsimp only
    have hget := get_swap s.h hi (show s.h.length-1 < s.h.length by omega)
    have hlen : (swap s.h element (s.h.length-1)).length = s.h.length := length_swap s.h element _
    have hbut := hord.replaced ho ha (show element+1 < s.h.length by omega)
    have hnew : get (swap s.h element (s.h.length-1)) element = get s.h (s.h.length-1) := by
      rw [hget element, if_neg (by omega), if_pos rfl]
    have hout : get (swap s.h element (s.h.length-1)) (s.h.length-1) = get s.h element := by
      rw [hget (s.h.length-1), if_pos rfl]
    have hsplit := dropLast_concat_get (swap s.h element (s.h.length-1)) (by omega)
    rw [hlen, hout] at hsplit
    have hperm : (get s.h element :: (swap s.h element (s.h.length-1)).dropLast).Perm s.h := by
      refine List.Perm.trans ?_ (swap_perm s.h hi (show s.h.length-1 < s.h.length by omega))
      exact (List.perm_append_singleton _ _).symm.trans (List.Perm.of_eq hsplit)
    rw [hnew, hout]
    have htracked : Tracked key ⟨(swap s.h element (s.h.length-1)).dropLast,
        tell key s.p (get s.h (s.h.length-1)) element⟩ := by
      intro k hk
      dsimp only at hk ⊢
      rw [List.length_dropLast, hlen] at hk
      rw [get_dropLast _ (by omega)]
      unfold tell
      by_cases hke : k = element
      · rw [hke, hnew, Function.update_self]
      · have hkey : key (get s.h k) ≠ key (get s.h (s.h.length-1)) := by
          intro heq
          have := ht.key_inj (show k < s.h.length by omega) (by omega) heq
          omega
        rw [hget k, if_neg (by omega), if_neg hke, Function.update_of_ne hkey]
        exact ht k (by omega)
    obtain ⟨hordered, htold, hsame, hframe⟩ := changeHeap_spec ho ha _ element htracked
      (by rw [List.length_dropLast, hlen]; omega) hbut
    rw [List.dropLast_concat]
    refine ⟨hordered, htold, (hsame.cons _).trans hperm, ?_⟩
    intro t hno
    rw [hframe t (fun a ha => hno a (hperm.subset (List.mem_cons_of_mem _ ha)))]
    have hkey := hno _ (get_mem s.h (show s.h.length-1 < s.h.length by omega))
    exact Function.update_of_ne (fun heq => hkey heq.symm) _ _
  · -- the element is the last one
    rw [if_neg hlast]
    rw [not_not] at hlast
    have hsplit := dropLast_concat_get s.h (by omega)
    have hwhich : s.h.length-1 = element := by omega
    rw [hwhich] at hsplit
    refine ⟨?_, ?_, (List.perm_append_singleton _ _).symm.trans (List.Perm.of_eq hsplit), fun _ _ => rfl⟩
    · intro c hc hc0
      rw [List.length_dropLast] at hc
      have hlt := parent_lt ha hc0
      rw [get_dropLast _ (by omega), get_dropLast _ (by omega)]
      exact hord c (by omega) hc0
    · intro k hk
      dsimp only at hk ⊢
      rw [List.length_dropLast] at hk
      rw [get_dropLast _ (by omega)]
      exact ht k (by omega)

end Places

/-- The first element is the smallest. -/
theorem Ordered.first_le (ho : Order less) (ha : 2 < arity) (hord : Ordered arity less h) (i : ℕ)
    (hi : i < h.length) : less (get h i) (get h 0) = false := by
  induction i using Nat.strongRecOn with
  | ind i ih =>
    rcases Nat.eq_zero_or_pos i with rfl | h0
    · exact ho.refl _
    · have hlt := parent_lt ha h0
      exact ho.trans _ _ _ (ih (i/arity) hlt (by omega)) (hord i hi h0)

/-- An element that is appended, or that has changed, may be out of place. -/
theorem Ordered.concat (ha : 2 < arity) (hord : Ordered arity less h) (a : α) :
    OrderedBut arity less (h ++ [a]) h.length := by
  have hold (k : ℕ) (hk : k < h.length) : get (h ++ [a]) k = get h k := get_append_left h [a] hk
  constructor
  · intro c hc hc0 hcl hcp
    rw [List.length_append, List.length_singleton] at hc
    have hlt := parent_lt ha hc0
    rw [hold c (by omega), hold (c/arity) (by omega)]
    exact hord c (by omega) hc0
  · intro hl0 c hc hc0 hcl
    rw [List.length_append, List.length_singleton] at hc
    have hlt := parent_lt ha hc0
    omega

theorem Ordered.set (ho : Order less) (ha : 2 < arity) (hord : Ordered arity less h) (i : ℕ) (a : α) :
    OrderedBut arity less (h.set i a) i := by
  have hold (k : ℕ) (hk : k ≠ i) : get (h.set i a) k = get h k := get_set_of_ne h a hk
  constructor
  · intro c hc hc0 hci hcp
    rw [List.length_set] at hc
    rw [hold c hci, hold (c/arity) hcp]
    exact hord c hc hc0
  · intro hi0 c hc hc0 hci
    rw [List.length_set] at hc
    have hlt := parent_lt ha hc0
    have hlt' := parent_lt ha hi0
    rw [hold c (by omega), hold (i/arity) (by omega)]
    have hchild := hord c hc hc0
    rw [hci] at hchild
    exact ho.trans _ _ _ (hord i (by omega) hi0) hchild

end Heap

end MobileIP
