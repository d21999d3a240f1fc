import MobileIP.TimerSet
import Mathlib.Data.List.Nodup

/-! What every operation on timers keeps: the heap is in order, every timer knows its place in the
heap or in the chunk, and has none if it is in neither. -/
namespace MobileIP

namespace TimerSet

theorem heapLess_order : Heap.Order heapLess where
  asymm a b h := by
    unfold heapLess at *
    rw [decide_eq_true_eq] at h
    exact decide_eq_false (by omega)
  trans a b c h h' := by
    unfold heapLess at *
    rw [decide_eq_false_iff_not] at *
    omega

theorem four : 2 < 4 := by decide

/-- The invariant while the chunk is run from `i` on: what is before `i` is no longer meant. -/
structure Inv (s : TimerSet) (i : ℕ) : Prop where
  ordered : Heap.Ordered 4 heapLess s.heap
  tracked : Heap.Tracked HeapElement.t ⟨s.heap, s.schedpos1⟩
  expiry : ∀ a ∈ s.heap, a.expiryS = s.expiryS a.t
  only : ∀ t, 0 < s.schedpos1 t → ∃ a ∈ s.heap, a.t = t
  chunk : ∀ k t, i ≤ k → s.chunkAt k = some t → s.schedpos1 t = -(k : ℤ)-1 ∧ s.expiryS t ≤ s.timerCheck
  chunkOnly : ∀ t, s.schedpos1 t < 0 → ∃ k, i ≤ k ∧ s.chunkAt k = some t

theorem inv_start (now : ℤ) : Inv (start now) 0 where
  ordered := fun c hc => absurd hc (Nat.not_lt_zero c)
  tracked := fun i hi => absurd hi (Nat.not_lt_zero i)
  expiry := fun a ha => absurd ha List.not_mem_nil
  only := fun t ht => absurd ht (Int.lt_irrefl 0)
  chunk := fun k t _ h => by cases h
  chunkOnly := fun t ht => absurd ht (Int.lt_irrefl 0)

variable {s : TimerSet} {i t : ℕ}

theorem Inv.pos_of_mem (h : Inv s i) {a : HeapElement} (ha : a ∈ s.heap) : 0 < s.schedpos1 a.t :=
  h.tracked.pos_of_mem ha

theorem Inv.not_in_heap (h : Inv s i) (ht : s.schedpos1 t ≤ 0) (a : HeapElement) (ha : a ∈ s.heap) : a.t ≠ t := by
  intro hat
  have hp := h.pos_of_mem ha
  rw [hat] at hp
  omega

/-- The element of a timer that is in the heap. -/
theorem Inv.at_place (h : Inv s i) (ht : 0 < s.schedpos1 t) :
    (s.schedpos1 t-1).toNat < s.heap.length ∧
      Heap.get s.heap (s.schedpos1 t-1).toNat = ⟨s.expiryS t, t⟩ := by
  obtain ⟨a, ha, hat⟩ := h.only t ht
  obtain ⟨j, hj, hget⟩ := Heap.exists_get ha
  have hp := h.tracked j hj
  have he := h.expiry a ha
  dsimp only at hp
  rw [hget, hat] at hp
  have hplace : (s.schedpos1 t-1).toNat = j := by omega
  rw [hplace, hget]
  rw [hat] at he
  refine ⟨hj, ?_⟩
  calc a = ⟨a.expiryS, a.t⟩ := rfl
    _ = ⟨s.expiryS t, t⟩ := by rw [he, hat]

/-- A timer is in the heap once only. -/
theorem Inv.nodup (h : Inv s i) : (s.heap.map HeapElement.t).Nodup := by
  rw [List.nodup_iff_getElem?_ne_getElem?]
  intro a b hab hb heq
  rw [List.length_map] at hb
  rw [List.getElem?_map, List.getElem?_map, List.getElem?_eq_getElem (Nat.lt_trans hab hb),
    List.getElem?_eq_getElem hb, Option.map_some, Option.map_some, Option.some.injEq,
    ← Heap.get_eq_getElem, ← Heap.get_eq_getElem] at heq
  exact Nat.ne_of_lt hab (h.tracked.key_inj (Nat.lt_trans hab hb) hb heq)

/-- The heap without a timer, or with a new element for it. -/
structure Rebuilt (s : TimerSet) (t : ℕ) (new : Option ℤ) (heap : List HeapElement) (p : ℕ → ℤ) : Prop where
  ordered : Heap.Ordered 4 heapLess heap
  tracked : Heap.Tracked HeapElement.t ⟨heap, p⟩
  mem : ∀ a, a ∈ heap ↔ new = some a.expiryS ∧ a.t = t ∨ a ∈ s.heap ∧ a.t ≠ t
  frame : ∀ t', t' ≠ t → (∀ a ∈ s.heap, a.t ≠ t') → p t' = s.schedpos1 t'

/-- The other timers keep their places in the chunk, and none of them enters or leaves the heap. -/
theorem Rebuilt.others {new : Option ℤ} {heap : List HeapElement} {p : ℕ → ℤ} (h : Inv s i)
    (hr : Rebuilt s t new heap p) (t' : ℕ) (hne : t' ≠ t) :
    p t' = s.schedpos1 t' ∨ (0 < p t' ∧ 0 < s.schedpos1 t') := by
  by_cases hin : ∃ a ∈ s.heap, a.t = t'
  · obtain ⟨a, ha, hat⟩ := hin
    have hmem : a ∈ heap := (hr.mem a).mpr (Or.inr ⟨ha, by rw [hat]; exact hne⟩)
    rw [← hat]
    exact Or.inr ⟨hr.tracked.pos_of_mem hmem, h.pos_of_mem ha⟩
  · exact Or.inl (hr.frame t' hne (fun a ha hat => hin ⟨a, ha, hat⟩))

/-- A timer that is given an element has a place in the heap. -/
theorem Rebuilt.pos {e : ℤ} {heap : List HeapElement} {p : ℕ → ℤ} (hr : Rebuilt s t (some e) heap p) : 0 < p t :=
  hr.tracked.pos_of_mem ((hr.mem ⟨e, t⟩).mpr (Or.inl ⟨rfl, rfl⟩))

theorem Rebuilt.heap_of {new : Option ℤ} {heap : List HeapElement} {p : ℕ → ℤ} (hr : Rebuilt s t new heap p)
    (a : HeapElement) (ha : a ∈ heap) : a ∈ s.heap ∨ a.t = t := by
  rcases (hr.mem a).mp ha with ⟨-, hat⟩ | ⟨ha, -⟩
  · exact Or.inr hat
  · exact Or.inl ha

/-- For a timer that has no element the heap stays as it is. -/
theorem Inv.rebuilt_none (h : Inv s i) (ht : s.schedpos1 t ≤ 0) (v : ℤ) :
    Rebuilt s t none s.heap (Function.update s.schedpos1 t v) := by
  have hout := h.not_in_heap ht
  refine ⟨h.ordered, ?_, ?_, fun t' hne _ => Function.update_of_ne hne _ _⟩
  · intro k hk
    exact (Function.update_of_ne (hout _ (Heap.get_mem _ hk)) _ _).trans (h.tracked k hk)
  · intro a
    constructor
    · exact fun ha => Or.inr ⟨ha, hout a ha⟩
    · rintro (⟨hno, -⟩ | ⟨ha, -⟩)
      · cases hno
      · exact ha

/-- A heap that was rebuilt for a timer, with the place of the timer itself. -/
theorem Inv.rebuilt {s' : TimerSet} {new : Option ℤ} (h : Inv s i)
    (hr : Rebuilt s t new s'.heap s'.schedpos1) (hcheck : s'.timerCheck = s.timerCheck)
    (hothers : ∀ t', t' ≠ t → s'.expiryS t' = s.expiryS t') (hnew : ∀ e, new = some e → s'.expiryS t = e)
    (hnone : new = none → s'.schedpos1 t ≤ 0)
    (hchunk : ∀ k t', t' ≠ t → i ≤ k → (s'.chunkAt k = some t' ↔ s.chunkAt k = some t'))
    (hself : ∀ k, i ≤ k → s'.chunkAt k = some t →
      s'.schedpos1 t = -(k : ℤ)-1 ∧ s'.expiryS t ≤ s'.timerCheck)
    (hselfOnly : s'.schedpos1 t < 0 → ∃ k, i ≤ k ∧ s'.chunkAt k = some t) : Inv s' i where
  ordered := hr.ordered
  tracked := hr.tracked
  expiry := by
    intro a ha
    rcases (hr.mem a).mp ha with ⟨he, hat⟩ | ⟨ha, hne⟩
    · rw [hat]
      exact (hnew a.expiryS he).symm
    · rw [hothers a.t hne]
      exact h.expiry a ha
  only := by
    intro t' hp
    by_cases htt : t' = t
    · cases new with
      | none =>
        have := hnone rfl
        rw [htt] at hp
        omega
      | some e => exact ⟨⟨e, t⟩, (hr.mem _).mpr (Or.inl ⟨rfl, rfl⟩), htt.symm⟩
    · have hs : 0 < s.schedpos1 t' := by
        rcases hr.others h t' htt with heq | ⟨-, hs⟩
        · rw [← heq]
          exact hp
        · exact hs
      obtain ⟨a, ha, hat⟩ := h.only t' hs
      exact ⟨a, (hr.mem a).mpr (Or.inr ⟨ha, by rw [hat]; exact htt⟩), hat⟩
  chunk := by
    intro k t' hk hslot
    by_cases htt : t' = t
    · rw [htt] at hslot ⊢
      exact hself k hk hslot
    · obtain ⟨hp, he⟩ := h.chunk k t' hk ((hchunk k t' htt hk).mp hslot)
      rw [hothers t' htt, hcheck]
      refine ⟨?_, he⟩
      rcases hr.others h t' htt with heq | ⟨-, hs⟩
      · rw [heq]
        exact hp
      · omega
  chunkOnly := by
    intro t' hp
    by_cases htt : t' = t
    · rw [htt] at hp ⊢
      exact hselfOnly hp
    · have hs : s.schedpos1 t' < 0 := by
        rcases hr.others h t' htt with heq | ⟨hs, -⟩
        · rw [← heq]
          exact hp
        · omega
      obtain ⟨k, hk, hslot⟩ := h.chunkOnly t' hs
      exact ⟨k, hk, (hchunk k t' htt hk).mpr hslot⟩

/-- Taking a timer out of the heap, with whatever place it is given then. -/
theorem Inv.remove_rebuilt (h : Inv s i) (j : ℕ) (hj : j < s.heap.length) (v : ℤ) :
    let t := (Heap.get s.heap j).t
    Rebuilt s t none (s.remove j).heap (Function.update (s.remove j).schedpos1 t v) := by
  intro t
  obtain ⟨hord, htracked, hperm, hframe⟩ :=
    Heap.removeHeap_spec heapLess_order four ⟨s.heap, s.schedpos1⟩ j h.tracked h.ordered hj
  have hmem : Heap.get s.heap j ∈ s.heap := Heap.get_mem s.heap hj
  unfold remove
  dsimp only at hperm hframe ⊢
  generalize Heap.removeHeap 4 heapLess (Heap.tell HeapElement.t) ⟨s.heap, s.schedpos1⟩ j = r at *
  have hother : ∀ a ∈ r.h.dropLast, a.t ≠ t := by
    have hnd := (hperm.map HeapElement.t).nodup_iff.mpr h.nodup
    rw [List.map_cons, List.nodup_cons] at hnd
    intro a ha hat
    exact hnd.1 (List.mem_map.mpr ⟨a, ha, hat⟩)
  refine ⟨hord, ?_, ?_, ?_⟩
  · intro k hk
    have hne := hother _ (Heap.get_mem _ hk)
    exact (Function.update_of_ne hne _ _).trans (htracked k hk)
  · intro a
    constructor
    · intro ha
      exact Or.inr ⟨hperm.subset (List.mem_cons_of_mem _ ha), hother a ha⟩
    · rintro (⟨hno, -⟩ | ⟨ha, hne⟩)
      · cases hno
      · rcases List.mem_cons.mp (hperm.symm.subset ha) with heq | ha
        · exact absurd (congrArg HeapElement.t heq) hne
        · exact ha
  · intro t' hne hout
    exact (Function.update_of_ne hne _ _).trans (hframe t' hout)

theorem join_set (l : List (Option ℕ)) (j k : ℕ) :
    ((l.set j none)[k]?).join = if k = j then none else (l[k]?).join := by
  rw [List.getElem?_set]
  by_cases hkj : k = j
  · rw [if_pos hkj.symm, if_pos hkj]
    split_ifs
    · rfl
    · rfl
  · rw [if_neg (fun he => hkj he.symm), if_neg hkj]

/-- A timer that leaves the chunk. -/
theorem Inv.leave_chunk (h : Inv s i) (ht : s.schedpos1 t < 0) (k : ℕ) (hk : i ≤ k) :
    ((s.runchunk.set (-s.schedpos1 t-1).toNat none)[k]?).join =
      if s.chunkAt k = some t then none else s.chunkAt k := by
  rw [join_set]
  obtain ⟨k₀, hk₀, hslot₀⟩ := h.chunkOnly t ht
  have hp₀ := (h.chunk k₀ t hk₀ hslot₀).1
  by_cases hslot : s.chunkAt k = some t
  · have hp := (h.chunk k t hk hslot).1
    rw [if_pos hslot, if_pos (by omega)]
  · have hne : k ≠ (-s.schedpos1 t-1).toNat := by
      rintro rfl
      have : (-s.schedpos1 t-1).toNat = k₀ := by omega
      rw [this] at hslot
      exact hslot hslot₀
    rw [if_neg hslot, if_neg hne]
    rfl

theorem Inv.chunk_ne (h : Inv s i) (ht : 0 ≤ s.schedpos1 t) (k : ℕ) (hk : i ≤ k) : s.chunkAt k ≠ some t := by
  intro hslot
  have := (h.chunk k t hk hslot).1
  omega

/-- The new element is in the heap, and only it may be out of order. -/
theorem Inv.putElement_spec (h : Inv s i) (t : ℕ) (e : ℤ) (expiryS : ℕ → ℤ) :
    let s' := { s with expiryS := expiryS }.putElement t e
    Heap.OrderedBut 4 heapLess s'.heap (s'.schedpos1 t-1).toNat ∧
      (s'.schedpos1 t-1).toNat < s'.heap.length ∧ Heap.Tracked HeapElement.t ⟨s'.heap, s'.schedpos1⟩ ∧
      (∀ a, a ∈ s'.heap ↔ some e = some a.expiryS ∧ a.t = t ∨ a ∈ s.heap ∧ a.t ≠ t) ∧
      ∀ t', t' ≠ t → s'.schedpos1 t' = s.schedpos1 t' := by
  unfold putElement
  dsimp only
  by_cases hold : s.schedpos1 t ≤ 0
  -- a new element at the end of the heap
  · rw [if_pos hold]
    dsimp only
    have hplace : (Function.update s.schedpos1 t (s.heap.length+1 : ℤ) t-1).toNat = s.heap.length := by
      rw [Function.update_self]
      omega
    have hout := h.not_in_heap hold
    rw [hplace]
    refine ⟨h.ordered.concat four _, ?_, ?_, ?_, fun t' hne => Function.update_of_ne hne _ _⟩
    · rw [List.length_append, List.length_singleton]
      omega
    · intro k hk
      dsimp only at hk ⊢
      rw [List.length_append, List.length_singleton] at hk
      by_cases hkl : k < s.heap.length
      · rw [Heap.get_append_left _ _ hkl, Function.update_of_ne (hout _ (Heap.get_mem _ hkl))]
        exact h.tracked k hkl
      · have hkl : k = s.heap.length := by omega
        rw [hkl, Heap.get_concat, Function.update_self]
    · intro a
      rw [List.mem_append, List.mem_singleton]
      constructor
      · rintro (ha | rfl)
        · exact Or.inr ⟨ha, hout a ha⟩
        · exact Or.inl ⟨rfl, rfl⟩
      · rintro (⟨he, hat⟩ | ⟨ha, -⟩)
        · right
          cases a
          cases he
          cases hat
          rfl
        · exact Or.inl ha
  -- the element of the timer, which stays where it is for now
  · rw [if_neg hold]
    obtain ⟨hlt, hget⟩ := h.at_place (show 0 < s.schedpos1 t by omega)
    dsimp only
    rw [hget]
    dsimp only
    generalize hj : (s.schedpos1 t-1).toNat = j at *
    refine ⟨h.ordered.set heapLess_order four j _, ?_, ?_, ?_, fun _ _ => rfl⟩
    · rw [List.length_set]
      exact hlt
    · intro k hk
      dsimp only at hk ⊢
      rw [List.length_set] at hk
      have hsame : (Heap.get (s.heap.set j ⟨e, t⟩) k).t = (Heap.get s.heap k).t := by
        by_cases hkj : k = j
        · rw [hkj, hget, Heap.get_set_self _ _ hlt]
        · rw [Heap.get_set_of_ne _ _ hkj]
      rw [hsame]
      exact h.tracked k hk
    · intro a
      constructor
      · intro ha
        obtain ⟨k, hk, hak⟩ := Heap.exists_get ha
        rw [List.length_set] at hk
        by_cases hkj : k = j
        · left
          rw [hkj, Heap.get_set_self _ _ hlt] at hak
          rw [← hak]
          exact ⟨rfl, rfl⟩
        · right
          rw [Heap.get_set_of_ne _ _ hkj] at hak
          rw [← hak]
          refine ⟨Heap.get_mem _ hk, ?_⟩
          intro hat
          refine hkj (h.tracked.key_inj hk hlt ?_)
          change (Heap.get s.heap k).t = (Heap.get s.heap j).t
          rw [hget, hat]
      · rintro (⟨he, hat⟩ | ⟨ha, hne⟩)
        · have hself : a = ⟨e, t⟩ := by
            cases a
            cases he
            cases hat
            rfl
          rw [hself]
          exact List.mem_of_getElem? (List.getElem?_set_self hlt)
        · obtain ⟨k, hk, hak⟩ := Heap.exists_get ha
          have hkj : k ≠ j := by
            rintro rfl
            rw [hget] at hak
            exact hne (by rw [← hak])
          rw [Heap.get_eq_getElem _ hk] at hak
          refine List.mem_of_getElem? (i := k) ?_
          rw [List.getElem?_set_ne (fun he => hkj he.symm), List.getElem?_eq_getElem hk, hak]

/-- `schedule_at_steady` on the heap. -/
theorem Inv.schedule_rebuilt (h : Inv s i) (t : ℕ) (e : ℤ) (expiryS : ℕ → ℤ) :
    let put := { s with expiryS := expiryS }.putElement t e
    let s' := put.change (put.schedpos1 t-1).toNat
    Rebuilt s t (some e) s'.heap s'.schedpos1 := by
  obtain ⟨hbut, hlt, htracked, hmem, hsame⟩ := h.putElement_spec t e expiryS
  dsimp only at hbut hlt htracked hmem hsame ⊢
  generalize { s with expiryS := expiryS }.putElement t e = put at *
  obtain ⟨hord, htold, hperm, hframe⟩ := Heap.changeHeap_spec heapLess_order four
    ⟨put.heap, put.schedpos1⟩ (put.schedpos1 t-1).toNat htracked hlt hbut
  unfold change
  dsimp only at hperm hframe ⊢
  generalize (Heap.changeHeap 4 heapLess (Heap.tell HeapElement.t) ⟨put.heap, put.schedpos1⟩
    (put.schedpos1 t-1).toNat).1 = r at *
  refine ⟨hord, htold, ?_, ?_⟩
  · intro a
    rw [hperm.mem_iff]
    exact hmem a
  · intro t' hne hout
    rw [hframe t', hsame t' hne]
    intro a ha hat
    rcases (hmem a).mp ha with ⟨-, h'⟩ | ⟨ha, -⟩
    · exact hne (hat.symm.trans h')
    · exact hout a ha hat

/-- The timers that are pending, with their expiry, and the time of the last run: the abstract
scheduler. -/
structure Pending where
  expiry : ℕ → Option ℤ
  check : ℤ

def Pending.apply (a : Pending) : Event → Pending
  | .check now => { a with check := now }
  | .fired t => { a with expiry := Function.update a.expiry t none }
  | .op (.schedule t time) =>
    { a with expiry := Function.update a.expiry t (some (expiryFor a.check time)) }
  | .op (.unschedule t) => { a with expiry := Function.update a.expiry t none }

/-- What a timer set stands for. -/
def pending (s : TimerSet) : Pending where
  expiry := fun t => if s.schedpos1 t = 0 then none else some (s.expiryS t)
  check := s.timerCheck

theorem pending_none_iff : s.pending.expiry t = none ↔ s.schedpos1 t = 0 := by
  unfold pending
  dsimp only
  split_ifs with h0
  · exact ⟨fun _ => h0, fun _ => rfl⟩
  · simp [h0]

theorem pending_some_iff {x : ℤ} : s.pending.expiry t = some x ↔ s.schedpos1 t ≠ 0 ∧ s.expiryS t = x := by
  unfold pending
  dsimp only
  split_ifs with h0
  · simp [h0]
  · rw [Option.some.injEq]
    exact ⟨fun h => ⟨h0, h⟩, fun h => h.2⟩

/-- The other timers are pending as before. -/
theorem Rebuilt.pending_eq (s' : TimerSet) {new x : Option ℤ} (h : Inv s i)
    (hr : Rebuilt s t new s'.heap s'.schedpos1) (hcheck : s'.timerCheck = s.timerCheck)
    (hothers : ∀ t', t' ≠ t → s'.expiryS t' = s.expiryS t') (hself : s'.pending.expiry t = x) :
    s'.pending = { s.pending with expiry := Function.update s.pending.expiry t x } := by
  rw [Pending.mk.injEq]
  refine ⟨?_, hcheck⟩
  funext t'
  by_cases htt : t' = t
  · rw [htt, Function.update_self]
    exact hself
  · rw [Function.update_of_ne htt]
    unfold pending
    dsimp only
    rw [hothers t' htt]
    rcases hr.others h t' htt with heq | ⟨h1, h2⟩
    · rw [heq]
    · rw [if_neg (by omega), if_neg (by omega)]

/-- The time at which the thread has to look again: the first expiry, or zero if there is none. -/
def IsNext (heap : List HeapElement) (e : ℤ) : Prop :=
  heap = [] ∧ e = 0 ∨ ∃ a ∈ heap, a.expiryS = e ∧ ∀ b ∈ heap, e ≤ b.expiryS

theorem first_le {heap : List HeapElement} (hord : Heap.Ordered 4 heapLess heap) {b : HeapElement}
    (hb : b ∈ heap) : (Heap.get heap 0).expiryS ≤ b.expiryS := by
  obtain ⟨j, hj, rfl⟩ := Heap.exists_get hb
  have hle := hord.first_le heapLess_order four j hj
  unfold heapLess at hle
  rw [decide_eq_false_iff_not] at hle
  omega

theorem isNext_setTimerExpiry (s : TimerSet) (hord : Heap.Ordered 4 heapLess s.heap) :
    IsNext s.heap s.setTimerExpiry.timerExpiry := by
  unfold setTimerExpiry
  cases hheap : s.heap with
  | nil => exact Or.inl ⟨rfl, rfl⟩
  | cons a rest =>
    rw [hheap] at hord
    exact Or.inr ⟨a, List.mem_cons_self, rfl, fun b hb => first_le hord hb⟩

/-- As long as a timer is not the first one, neither before nor after, the first expiry is the
same. -/
theorem Rebuilt.isNext {new : Option ℤ} {heap : List HeapElement} {p : ℕ → ℤ} {e : ℤ} (h : Inv s i)
    (hr : Rebuilt s t new heap p) (hsome : s.heap ≠ []) (hold : s.schedpos1 t ≠ 1) (hnew : p t ≠ 1)
    (hn : IsNext s.heap e) : IsNext heap e := by
  have hlen : 0 < s.heap.length := List.length_pos_iff.mpr hsome
  obtain ⟨a, ha, hae, hall⟩ := hn.resolve_left (fun hnil => hsome hnil.1)
  -- the first element of the old heap is in the new one
  have hfirst : Heap.get s.heap 0 ∈ heap := by
    refine (hr.mem _).mpr (Or.inr ⟨Heap.get_mem _ hlen, ?_⟩)
    intro hat
    have hp := h.tracked 0 hlen
    dsimp only at hp
    rw [hat] at hp
    exact hold (by omega)
  have hfe : (Heap.get s.heap 0).expiryS = e := by
    have h1 := first_le h.ordered ha
    have h2 := hall _ (Heap.get_mem _ hlen)
    omega
  have hlen' : 0 < heap.length := List.length_pos_of_mem hfirst
  -- and that of the new one in the old one
  have hfirst' : Heap.get heap 0 ∈ s.heap := by
    rcases (hr.mem _).mp (Heap.get_mem _ hlen') with ⟨-, hat⟩ | ⟨hmem, -⟩
    · have hp := hr.tracked 0 hlen'
      dsimp only at hp
      rw [hat] at hp
      exact absurd (by omega) hnew
    · exact hmem
  refine Or.inr ⟨_, hfirst, hfe, ?_⟩
  intro b hb
  exact Int.le_trans (hall _ hfirst') (first_le hr.ordered hb)

/-- The invariant together with the time to look again. -/
structure Ready (s : TimerSet) (i : ℕ) : Prop where
  inv : Inv s i
  next : IsNext s.heap s.timerExpiry

theorem Inv.setTimerExpiry (h : Inv s i) : Ready s.setTimerExpiry i :=
  ⟨⟨h.ordered, h.tracked, h.expiry, h.only, h.chunk, h.chunkOnly⟩, isNext_setTimerExpiry s h.ordered⟩

/-- What an operation on a timer does. -/
structure Applied (s : TimerSet) (i : ℕ) (o : Op) (s' : TimerSet) : Prop where
  ready : Ready s' i
  pending : s'.pending = s.pending.apply (.op o)
  length : s'.runchunk.length = s.runchunk.length
  heap : ∀ a ∈ s'.heap, a ∈ s.heap ∨ a.t = o.timer

theorem without_iff {t t' : ℕ} {x : Option ℕ} (hne : t' ≠ t) :
    (if x = some t then none else x) = some t' ↔ x = some t' := by
  split_ifs with hx
  · rw [hx, Option.some.injEq]
    constructor
    · intro hno
      cases hno
    · intro heq
      exact absurd heq.symm hne
  · rfl

theorem without_ne (t : ℕ) (x : Option ℕ) : (if x = some t then none else x) ≠ some t := by
  split_ifs with hx
  · intro hno
    cases hno
  · exact hx

/-- The chunk after `schedule_at_steady` or `unschedule`. -/
theorem Inv.chunk_without (h : Inv s i) (t : ℕ) (l : List (Option ℕ))
    (hl : l = if s.schedpos1 t < 0 then s.runchunk.set (-s.schedpos1 t-1).toNat none else s.runchunk)
    (k : ℕ) (hk : i ≤ k) : (l[k]?).join = if s.chunkAt k = some t then none else s.chunkAt k := by
  rw [hl]
  by_cases ht : s.schedpos1 t < 0
  · rw [if_pos ht]
    exact h.leave_chunk ht k hk
  · rw [if_neg ht, if_neg (h.chunk_ne (by omega) k hk)]
    rfl

theorem putElement_frame (s : TimerSet) (t : ℕ) (e : ℤ) :
    (s.putElement t e).runchunk =
      (if s.schedpos1 t < 0 then s.runchunk.set (-s.schedpos1 t-1).toNat none else s.runchunk) ∧
      (s.putElement t e).expiryS = s.expiryS ∧ (s.putElement t e).timerCheck = s.timerCheck ∧
      (s.putElement t e).timerExpiry = s.timerExpiry := by
  unfold putElement
  dsimp only
  by_cases hold : s.schedpos1 t ≤ 0
  · rw [if_pos hold]
    exact ⟨rfl, rfl, rfl, rfl⟩
  · rw [if_neg hold, if_neg (show ¬ s.schedpos1 t < 0 by omega)]
    exact ⟨rfl, rfl, rfl, rfl⟩

/-- A heap that was rebuilt for a timer, which is not in the chunk any more. -/
theorem Inv.rebuilt_without {s' : TimerSet} {new : Option ℤ} (h : Inv s i)
    (hr : Rebuilt s t new s'.heap s'.schedpos1) (hcheck : s'.timerCheck = s.timerCheck)
    (hothers : ∀ t', t' ≠ t → s'.expiryS t' = s.expiryS t') (hself : s'.pending.expiry t = new)
    (hslots : ∀ k, i ≤ k → s'.chunkAt k = if s.chunkAt k = some t then none else s.chunkAt k) : Inv s' i := by
  have hzero : new = none → s'.schedpos1 t = 0 := by
    intro hnone
    exact pending_none_iff.mp (hself.trans hnone)
  have hplace : 0 ≤ s'.schedpos1 t := by
    cases new with
    | none => exact Int.le_of_eq (hzero rfl).symm
    | some e => exact Int.le_of_lt hr.pos
  refine h.rebuilt hr hcheck hothers ?_ (fun hnone => Int.le_of_eq (hzero hnone)) ?_ ?_ ?_
  · intro e he
    exact (pending_some_iff.mp (hself.trans he)).2
  · intro k t' hne hk
    rw [hslots k hk]
    exact without_iff hne
  · intro k hk hslot
    exact absurd ((hslots k hk).symm.trans hslot) (without_ne t _)
  · intro hneg
    omega

/-- The timer at `j` is taken out of the heap. -/
theorem Inv.take_out (h : Inv s i) (j : ℕ) (hj : j < s.heap.length) :
    let t := (Heap.get s.heap j).t
    let s' := (s.remove j).setSchedpos1 t 0
    Inv s' i ∧ s'.pending = { s.pending with expiry := Function.update s.pending.expiry t none } := by
  intro t s'
  have hr : Rebuilt s t none s'.heap s'.schedpos1 := h.remove_rebuilt j hj 0
  have hself : s'.pending.expiry t = none := pending_none_iff.mpr (setSchedpos1_self _ t 0)
  have hplace : 0 < s.schedpos1 t := h.pos_of_mem (Heap.get_mem _ hj)
  refine ⟨h.rebuilt_without hr rfl (fun _ _ => rfl) hself ?_,
    Rebuilt.pending_eq s' h hr rfl (fun _ _ => rfl) hself⟩
  intro k hk
  rw [if_neg (h.chunk_ne (Int.le_of_lt hplace) k hk)]
  rfl

theorem Inv.length_remove (h : Inv s i) (j : ℕ) (hj : j < s.heap.length) :
    (s.remove j).heap.length+1 = s.heap.length := by
  have hperm := (Heap.removeHeap_spec heapLess_order four ⟨s.heap, s.schedpos1⟩ j h.tracked h.ordered
    hj).2.2.1.length_eq
  rw [List.length_cons] at hperm
  exact hperm

theorem Ready.schedule_spec (h : Ready s i) (t : ℕ) (time : ℤ) :
    Applied s i (.schedule t time) (s.scheduleAtSteady t time) := by
  have hr := h.inv.schedule_rebuilt t (expiryFor s.timerCheck time)
    (Function.update s.expiryS t (expiryFor s.timerCheck time))
  obtain ⟨hchunk, hexpiry, hcheck, hnext⟩ := putElement_frame
    { s with expiryS := Function.update s.expiryS t (expiryFor s.timerCheck time) } t
    (expiryFor s.timerCheck time)
  unfold scheduleAtSteady
  dsimp only at hr hchunk hexpiry hcheck hnext ⊢
  generalize { s with expiryS := Function.update s.expiryS t (expiryFor s.timerCheck time) }.putElement t
    (expiryFor s.timerCheck time) = put at *
  -- `change_heap` does not touch what is not in the heap
  have hchange : (put.change (put.schedpos1 t-1).toNat).runchunk = put.runchunk ∧
      (put.change (put.schedpos1 t-1).toNat).expiryS = put.expiryS ∧
      (put.change (put.schedpos1 t-1).toNat).timerCheck = put.timerCheck ∧
      (put.change (put.schedpos1 t-1).toNat).timerExpiry = put.timerExpiry := ⟨rfl, rfl, rfl, rfl⟩
  generalize put.change (put.schedpos1 t-1).toNat = s' at *
  obtain ⟨hc1, hc2, hc3, hc4⟩ := hchange
  have hothers (t' : ℕ) (hne : t' ≠ t) : s'.expiryS t' = s.expiryS t' := by
    rw [hc2, hexpiry]
    exact Function.update_of_ne hne _ _
  have hself : s'.pending.expiry t = some (expiryFor s.timerCheck time) := by
    refine pending_some_iff.mpr ⟨Int.ne_of_gt hr.pos, ?_⟩
    rw [hc2, hexpiry]
    exact Function.update_self _ _ _
  have hinv : Inv s' i := h.inv.rebuilt_without hr (hc3.trans hcheck) hothers hself
    (h.inv.chunk_without t s'.runchunk (hc1.trans hchunk))
  have hpending : s'.pending = s.pending.apply (.op (.schedule t time)) :=
    Rebuilt.pending_eq s' h.inv hr (hc3.trans hcheck) hothers hself
  have hlength : s'.runchunk.length = s.runchunk.length := by
    rw [hc1, hchunk]
    split_ifs
    · exact List.length_set
    · rfl
  split_ifs with hfirst
  · exact ⟨hinv.setTimerExpiry, hpending, hlength, hr.heap_of⟩
  · obtain ⟨hold, hnew⟩ := not_or.mp hfirst
    have hsome : s.heap ≠ [] := by
      -- else the timer would be the first one
      intro hnil
      have hlen : 0 < s'.heap.length :=
        List.length_pos_of_mem ((hr.mem ⟨expiryFor s.timerCheck time, t⟩).mpr (Or.inl ⟨rfl, rfl⟩))
      have hp := hr.tracked 0 hlen
      rcases (hr.mem _).mp (Heap.get_mem _ hlen) with ⟨-, hat⟩ | ⟨hmem, -⟩
      · dsimp only at hp
        rw [hat] at hp
        exact hnew (by omega)
      · rw [hnil] at hmem
        cases hmem
    refine ⟨⟨hinv, ?_⟩, hpending, hlength, hr.heap_of⟩
    rw [hc4, hnext]
    exact hr.isNext h.inv hsome hold hnew h.next

theorem Ready.unschedule_spec (h : Ready s i) (t : ℕ) :
    Applied s i (.unschedule t) (s.unschedule t) := by
  unfold unschedule
  dsimp only
  by_cases h0 : s.schedpos1 t = 0
  · rw [if_pos h0]
    refine ⟨h, ?_, rfl, fun a ha => Or.inl ha⟩
    unfold Pending.apply
    dsimp only
    rw [← pending_none_iff.mpr h0, Function.update_eq_self]
  rw [if_neg h0]
  by_cases hpos : 0 < s.schedpos1 t
  -- the timer is in the heap
  · rw [if_pos hpos]
    obtain ⟨hlt, hget⟩ := h.inv.at_place hpos
    have hr := h.inv.remove_rebuilt _ hlt 0
    obtain ⟨hinv, hpending⟩ := h.inv.take_out _ hlt
    dsimp only at hr hinv hpending
    rw [hget] at hr hinv hpending
    split_ifs with h1
    · exact ⟨hinv.setTimerExpiry, hpending, rfl, hr.heap_of⟩
    · refine ⟨⟨hinv, ?_⟩, hpending, rfl, hr.heap_of⟩
      have hsome : s.heap ≠ [] := List.length_pos_iff.mp (Nat.lt_of_le_of_lt (Nat.zero_le _) hlt)
      refine hr.isNext h.inv hsome h1 ?_ h.next
      dsimp only
      rw [Function.update_self]
      decide
  -- the timer is in the chunk, and leaves a null pointer there
  · rw [if_neg hpos]
    have hneg : s.schedpos1 t < 0 := by omega
    have hr := h.inv.rebuilt_none (Int.le_of_lt hneg) 0
    generalize hs' : { s with runchunk := s.runchunk.set (-s.schedpos1 t-1).toNat none }.setSchedpos1 t 0 = s'
    have hself : s'.pending.expiry t = none := by
      rw [← hs']
      exact pending_none_iff.mpr (setSchedpos1_self _ t 0)
    subst hs'
    exact ⟨⟨h.inv.rebuilt_without hr rfl (fun _ _ => rfl) hself (h.inv.leave_chunk hneg), h.next⟩,
      Rebuilt.pending_eq _ h.inv hr rfl (fun _ _ => rfl) hself, List.length_set, fun a ha => Or.inl ha⟩

theorem Applied.check {s' : TimerSet} {o : Op} (h : Applied s i o s') : s'.timerCheck = s.timerCheck := by
  have hp := congrArg Pending.check h.pending
  cases o with
  | schedule t time => exact hp
  | unschedule t => exact hp

theorem Ready.apply_spec (h : Ready s i) (o : Op) : Applied s i o (s.apply o) := by
  cases o with
  | schedule t time => exact h.schedule_spec t time
  | unschedule t => exact h.unschedule_spec t

end TimerSet

end MobileIP
