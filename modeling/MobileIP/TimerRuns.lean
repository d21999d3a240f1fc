import MobileIP.TimerInvariant
import MobileIP.Library.Runs

/-! Runs of the timers of a thread: a timer fires once for each time that it is scheduled, not
before it is due, and every run of the timers fires all those that are. -/
namespace MobileIP

namespace TimerSet

variable {s : TimerSet} {i t : ℕ}

/-- The first timer may fire. -/
def Allowed (a : Pending) : Event → Prop
  | .fired t => ∃ x, a.expiry t = some x ∧ x ≤ a.check
  | _ => True

/-- Every timer that fires is pending and due. -/
def Legal : Pending → List Event → Prop
  | _, [] => True
  | a, e :: es => Allowed a e ∧ Legal (a.apply e) es

/-- From `s` to `s'` the timers did what the abstract scheduler does on the same events. -/
structure Follows (s : TimerSet) (es : List Event) (s' : TimerSet) : Prop where
  legal : Legal s.pending es
  pending : s'.pending = es.foldl Pending.apply s.pending

theorem legal_append {a : Pending} {es es' : List Event} (h : Legal a es)
    (h' : Legal (es.foldl Pending.apply a) es') : Legal a (es ++ es') := by
  induction es generalizing a with
  | nil => exact h'
  | cons e es ih => exact ⟨h.1, ih h.2 h'⟩

theorem Follows.nil (s : TimerSet) : Follows s [] s := ⟨trivial, rfl⟩

theorem Follows.append {s' s'' : TimerSet} {es es' : List Event} (h : Follows s es s')
    (h' : Follows s' es' s'') : Follows s (es ++ es') s'' where
  legal := legal_append h.legal (by rw [← h.pending]; exact h'.legal)
  pending := by rw [List.foldl_append, ← h.pending]; exact h'.pending

/-- The heap has no timers but those of `s` and those for which there is an operation. -/
def From (s : TimerSet) (es : List Event) (s' : TimerSet) : Prop :=
  ∀ a ∈ s'.heap, a ∈ s.heap ∨ ∃ o, .op o ∈ es ∧ o.timer = a.t

theorem From.trans {s' s'' : TimerSet} {es es' : List Event} (h : From s es s') (h' : From s' es' s'') :
    From s (es ++ es') s'' := by
  intro a ha
  rcases h' a ha with ha | ⟨o, ho, hat⟩
  · rcases h a ha with ha | ⟨o, ho, hat⟩
    · exact Or.inl ha
    · exact Or.inr ⟨o, List.mem_append_left _ ho, hat⟩
  · exact Or.inr ⟨o, List.mem_append_right _ ho, hat⟩

/-- What a part of a run does. -/
structure Part (s : TimerSet) (es : List Event) (s' : TimerSet) (i : ℕ) : Prop where
  ready : Ready s' i
  follows : Follows s es s'
  length : s'.runchunk.length = s.runchunk.length
  check : s'.timerCheck = s.timerCheck
  source : From s es s'

theorem Part.append {s' s'' : TimerSet} {es es' : List Event} {j : ℕ} (h : Part s es s' i)
    (h' : Part s' es' s'' j) : Part s (es ++ es') s'' j where
  ready := h'.ready
  follows := h.follows.append h'.follows
  length := h'.length.trans h.length
  check := h'.check.trans h.check
  source := h.source.trans h'.source

theorem Ready.part_nil (h : Ready s i) : Part s [] s i :=
  ⟨h, Follows.nil s, rfl, rfl, fun _ ha => Or.inl ha⟩

/-- The operations of a task or of a callback. -/
theorem Ready.ops (h : Ready s i) (os : List Op) : Part s (os.map .op) (os.foldl apply s) i := by
  induction os generalizing s with
  | nil => exact h.part_nil
  | cons o os ih =>
    have ho := h.apply_spec o
    have hfirst : Part s [.op o] (s.apply o) i := by
      refine ⟨ho.ready, ⟨⟨trivial, trivial⟩, ho.pending⟩, ho.length, ho.check, ?_⟩
      intro a ha
      rcases ho.heap a ha with ha | hat
      · exact Or.inl ha
      · exact Or.inr ⟨o, List.mem_singleton_self _, hat.symm⟩
    exact hfirst.append (ih ho.ready)

theorem due_iff (s : TimerSet) :
    s.due = true ↔ 0 < s.heap.length ∧ (Heap.get s.heap 0).expiryS ≤ s.timerCheck := by
  unfold due
  cases s.heap with
  | nil => simp
  | cons a rest =>
    rw [decide_eq_true_eq]
    exact ⟨fun h => ⟨Nat.succ_pos _, h⟩, fun h => h.2⟩

/-- If the first timer is not due, no timer of the heap is. -/
theorem Inv.not_due (h : Inv s i) (hd : s.due = false) (a : HeapElement) (ha : a ∈ s.heap) :
    s.timerCheck < a.expiryS := by
  have hfirst := first_le h.ordered ha
  by_contra hle
  have : s.due = true := (due_iff s).mpr ⟨List.length_pos_of_mem ha, by omega⟩
  rw [this] at hd
  cases hd

/-- The first timer of the heap leaves it, for the place `v`. -/
theorem Inv.first_rebuilt (h : Inv s i) (hlen : 0 < s.heap.length) (v : ℤ) :
    Rebuilt s s.firstTimer none (s.remove 0).heap (Function.update (s.remove 0).schedpos1 s.firstTimer v) :=
  h.remove_rebuilt 0 hlen v

theorem Inv.first_place (h : Inv s i) (hlen : 0 < s.heap.length) :
    s.schedpos1 s.firstTimer = 1 ∧ s.expiryS s.firstTimer = (Heap.get s.heap 0).expiryS := by
  have hp := h.tracked 0 hlen
  have he := h.expiry _ (Heap.get_mem _ hlen)
  exact ⟨by unfold firstTimer; dsimp only at hp; omega, he.symm⟩

theorem Rebuilt.heap_subset {heap : List HeapElement} {p : ℕ → ℤ} (hr : Rebuilt s t none heap p) :
    ∀ a ∈ heap, a ∈ s.heap := by
  intro a ha
  rcases (hr.mem a).mp ha with ⟨hno, -⟩ | ⟨ha, -⟩
  · cases hno
  · exact ha

theorem Ready.pop_spec (h : Ready s i) (hd : s.due = true) : Part s [.fired s.firstTimer] s.popFirst i := by
  obtain ⟨hlen, hdue⟩ := (due_iff s).mp hd
  have hr := h.inv.first_rebuilt hlen 0
  obtain ⟨hplace, hexp⟩ := h.inv.first_place hlen
  obtain ⟨hinv, hpending⟩ := h.inv.take_out 0 hlen
  refine ⟨hinv.setTimerExpiry, ⟨⟨?_, trivial⟩, hpending⟩, rfl, rfl, fun a ha => Or.inl (hr.heap_subset a ha)⟩
  refine ⟨s.expiryS s.firstTimer, pending_some_iff.mpr ⟨by omega, rfl⟩, ?_⟩
  rw [hexp]
  exact hdue

section Hooks

variable {σ : Type} (k : Hooks σ)

/-- A timer has been taken out of its place, and its callback runs. -/
theorem Part.callback {s' : TimerSet} (h : Part s [.fired t] s' i) (e : σ) :
    Part s (runOneTimer k t (s', e)).2 (runOneTimer k t (s', e)).1.1 i :=
  h.append (h.ready.ops (k.callback e t).2)

theorem runHeap_spec (n : ℕ) (s : TimerSet) (e : σ) (h : Ready s i) (hd : s.due = true) :
    let r := runHeap k n (s, e)
    Part s r.2.1 r.1.1 i ∧ (r.2.2 = true → r.1.1.due = true) ∧
      (r.2.2 = false → r.1.1.due = false ∨ k.stop r.1.2 = true) := by
  induction n generalizing s e with
  | zero =>
    have hfirst := (h.pop_spec hd).callback k e
    rw [runHeap]
    dsimp only
    generalize runOneTimer k s.firstTimer (s.popFirst, e) = r at *
    by_cases hmore : (r.1.1.due && !k.stop r.1.2) = true
    -- the limit is reached with a timer that is due
    · rw [if_pos hmore]
      rw [Bool.and_eq_true] at hmore
      exact ⟨hfirst, fun _ => hmore.1, fun hno => by cases hno⟩
    · rw [if_neg hmore]
      rw [Bool.not_eq_true, Bool.and_eq_false_iff, Bool.not_eq_false'] at hmore
      exact ⟨hfirst, fun hno => absurd hno Bool.false_ne_true, fun _ => hmore⟩
  | succ n ih =>
    have hfirst := (h.pop_spec hd).callback k e
    rw [runHeap]
    dsimp only
    generalize runOneTimer k s.firstTimer (s.popFirst, e) = r at *
    by_cases hmore : (r.1.1.due && !k.stop r.1.2) = true
    · rw [if_pos hmore]
      rw [Bool.and_eq_true] at hmore
      obtain ⟨hrest, hlimit, hend⟩ := ih r.1.1 r.1.2 hfirst.ready hmore.1
      exact ⟨hfirst.append hrest, hlimit, hend⟩
    · rw [if_neg hmore]
      rw [Bool.not_eq_true, Bool.and_eq_false_iff, Bool.not_eq_false'] at hmore
      exact ⟨hfirst, fun hno => absurd hno Bool.false_ne_true, fun _ => hmore⟩

/-- One timer goes from the heap to the end of the chunk. -/
theorem Inv.fill (h : Inv s 0) (hd : s.due = true) :
    Inv s.fillOne 0 ∧ s.fillOne.pending = s.pending ∧ s.fillOne.heap.length+1 = s.heap.length := by
  obtain ⟨hlen, hdue⟩ := (due_iff s).mp hd
  have hr := h.first_rebuilt hlen (-(s.runchunk.length : ℤ)-1)
  obtain ⟨hplace, hexp⟩ := h.first_place hlen
  have hself : s.fillOne.schedpos1 s.firstTimer = -(s.runchunk.length : ℤ)-1 := setSchedpos1_self _ _ _
  have hslots (j : ℕ) : s.fillOne.chunkAt j = if j = s.runchunk.length then some s.firstTimer else s.chunkAt j := by
    change ((s.runchunk ++ [some s.firstTimer])[j]?).join = _
    by_cases hj : j = s.runchunk.length
    · rw [if_pos hj, hj, List.getElem?_concat_length]
      rfl
    · rw [if_neg hj]
      unfold chunkAt
      rw [List.getElem?_append]
      split_ifs with hlt
      · rfl
      · rw [List.getElem?_eq_none (show s.runchunk.length ≤ j by omega),
          List.getElem?_eq_none (by rw [List.length_singleton]; omega)]
  have hpending : s.fillOne.pending = s.pending := by
    -- it is pending in the chunk as it was in the heap
    have hnow : s.fillOne.pending.expiry s.firstTimer = some (s.expiryS s.firstTimer) :=
      pending_some_iff.mpr ⟨by omega, rfl⟩
    have hbefore : s.pending.expiry s.firstTimer = some (s.expiryS s.firstTimer) :=
      pending_some_iff.mpr ⟨by omega, rfl⟩
    have hp := Rebuilt.pending_eq s.fillOne h hr rfl (fun _ _ => rfl) hnow
    rw [← hbefore, Function.update_eq_self] at hp
    exact hp
  refine ⟨?_, hpending, ?_⟩
  · refine h.rebuilt hr rfl (fun _ _ => rfl) (fun e he => by cases he) (fun _ => by omega) ?_ ?_ ?_
    -- the place behind the chunk was free, and all others are as before
    · intro j t' hne _
      rw [hslots j]
      split_ifs with hj
      · rw [Option.some.injEq, hj]
        unfold chunkAt
        rw [List.getElem?_eq_none (Nat.le_refl _)]
        constructor
        · exact fun heq => absurd heq.symm hne
        · intro hno
          cases hno
      · rfl
    · intro j hj hslot
      rw [hslots j] at hslot
      split_ifs at hslot with hjl
      · rw [hself, hjl]
        refine ⟨rfl, ?_⟩
        change s.expiryS s.firstTimer ≤ s.timerCheck
        rw [hexp]
        exact hdue
      · exact absurd hslot (h.chunk_ne (by omega) j hj)
    · intro _
      refine ⟨s.runchunk.length, Nat.zero_le _, ?_⟩
      rw [hslots, if_pos rfl]
  · exact h.length_remove 0 hlen

theorem fillChunk_spec (fuel : ℕ) (s : TimerSet) (h : Inv s 0) (hd : s.due = true)
    (hfuel : s.heap.length ≤ fuel) :
    let s' := fillChunk fuel s
    Inv s' 0 ∧ s'.pending = s.pending ∧ s'.due = false := by
  induction fuel generalizing s with
  | zero =>
    have := ((due_iff s).mp hd).1
    omega
  | succ fuel ih =>
    obtain ⟨hinv, hp, hlen⟩ := h.fill hd
    rw [fillChunk]
    by_cases hmore : s.fillOne.due = true
    · rw [if_pos hmore]
      obtain ⟨hinv', hp', hno⟩ := ih s.fillOne hinv hmore (by omega)
      exact ⟨hinv', hp'.trans hp, hno⟩
    · rw [if_neg hmore]
      exact ⟨hinv, hp, by simpa using hmore⟩

/-- A timer of the chunk that is not at `i` is after it. -/
theorem Inv.after_slot (h : Inv s i) (ht : s.schedpos1 t < 0) (hslot : s.chunkAt i ≠ some t) :
    ∃ j, i+1 ≤ j ∧ s.chunkAt j = some t := by
  obtain ⟨j, hj, hslot'⟩ := h.chunkOnly t ht
  refine ⟨j, ?_, hslot'⟩
  have hne : j ≠ i := by
    rintro rfl
    exact hslot hslot'
  omega

/-- The timer at `i` is about to run. -/
theorem Ready.run_slot (h : Ready s i) (hslot : s.chunkAt i = some t) :
    Part s [.fired t] (s.setSchedpos1 t 0) (i+1) := by
  obtain ⟨hplace, hdue⟩ := h.inv.chunk i t (Nat.le_refl _) hslot
  have hr : Rebuilt s t none s.heap (s.setSchedpos1 t 0).schedpos1 := h.inv.rebuilt_none (by omega) 0
  have hother (t' : ℕ) (hne : t' ≠ t) : (s.setSchedpos1 t 0).schedpos1 t' = s.schedpos1 t' :=
    Function.update_of_ne hne _ _
  have hself : (s.setSchedpos1 t 0).schedpos1 t = 0 := setSchedpos1_self _ _ _
  have hinv : Inv (s.setSchedpos1 t 0) (i+1) := by
    refine ⟨hr.ordered, hr.tracked, h.inv.expiry, ?_, ?_, ?_⟩
    · intro t' hp
      by_cases htt : t' = t
      · rw [htt] at hp
        omega
      · rw [hother t' htt] at hp
        exact h.inv.only t' hp
    · intro j t' hj hslot'
      obtain ⟨hp, he⟩ := h.inv.chunk j t' (by omega) hslot'
      have hne : t' ≠ t := by
        rintro rfl
        omega
      rw [hother t' hne]
      exact ⟨hp, he⟩
    · intro t' hp
      by_cases htt : t' = t
      · rw [htt] at hp
        omega
      · rw [hother t' htt] at hp
        refine h.inv.after_slot hp ?_
        rw [hslot, ne_eq, Option.some.injEq]
        exact fun heq => htt heq.symm
  exact ⟨⟨hinv, h.next⟩,
    ⟨⟨⟨s.expiryS t, pending_some_iff.mpr ⟨by omega, rfl⟩, hdue⟩, trivial⟩,
      Rebuilt.pending_eq _ h.inv hr rfl (fun _ _ => rfl) (pending_none_iff.mpr hself)⟩,
    rfl, rfl, fun a ha => Or.inl ha⟩

theorem Ready.skip_slot (h : Ready s i) (hslot : s.chunkAt i = none) : Ready s (i+1) where
  inv :=
    { h.inv with
      chunk := fun j t' hj => h.inv.chunk j t' (by omega)
      chunkOnly := by
        intro t' hp
        refine h.inv.after_slot hp ?_
        rw [hslot]
        intro hno
        cases hno }
  next := h.next

theorem runChunk_spec (n i : ℕ) (s : TimerSet) (e : σ) (h : Ready s i) :
    let r := runChunk k n i (s, e)
    Part s r.2.1 r.1.1 r.2.2 ∧ r.2.2 ≤ i+n ∧ (r.2.2 = i+n ∨ k.stop r.1.2 = true) := by
  induction n generalizing i s e with
  | zero => exact ⟨h.part_nil, Nat.le_refl _, Or.inl rfl⟩
  | succ n ih =>
    rw [runChunk]
    by_cases hstop : k.stop e = true
    · rw [if_pos hstop]
      exact ⟨h.part_nil, Nat.le_add_right _ _, Or.inr hstop⟩
    · rw [if_neg hstop]
      cases hslot : s.chunkAt i with
      | none =>
        obtain ⟨hpart, hle, hend⟩ := ih (i+1) s e (h.skip_slot hslot)
        rw [Nat.add_right_comm] at hle hend
        exact ⟨hpart, hle, hend⟩
      | some t =>
        have hfirst := (h.run_slot hslot).callback k e
        dsimp only
        generalize runOneTimer k t (s.setSchedpos1 t 0, e) = r at *
        obtain ⟨hpart, hle, hend⟩ := ih (i+1) r.1.1 r.1.2 hfirst.ready
        rw [Nat.add_right_comm] at hle hend
        exact ⟨hfirst.append hpart, hle, hend⟩

theorem reschedule_spec (n i : ℕ) (s : TimerSet) (h : Ready s i) :
    let r := reschedule n i s
    Part s r.2 r.1 (i+n) := by
  induction n generalizing i s with
  | zero => exact h.part_nil
  | succ n ih =>
    rw [reschedule]
    cases hslot : s.chunkAt i with
    | none =>
      have hrest := ih (i+1) s (h.skip_slot hslot)
      rw [Nat.add_right_comm] at hrest
      exact hrest
    | some t =>
      have hout := h.run_slot hslot
      have hback := hout.ready.schedule_spec t (s.expiryS t)
      have hstep : Part s [.op (.schedule t (s.expiryS t))]
          ((s.setSchedpos1 t 0).scheduleAtSteady t (s.expiryS t)) (i+1) := by
        refine ⟨hback.ready, ⟨⟨trivial, trivial⟩, ?_⟩, hback.length.trans hout.length,
          hback.check.trans hout.check, ?_⟩
        · -- it was not pending for a moment only
          rw [hback.pending, hout.follows.pending]
          change Pending.mk (Function.update (Function.update s.pending.expiry t none) t _) _ = _
          rw [Function.update_idem]
          rfl
        · intro a ha
          rcases hback.heap a ha with ha | hat
          · exact Or.inl ha
          · exact Or.inr ⟨_, List.mem_singleton_self _, hat.symm⟩
      have hrest := ih (i+1) _ hstep.ready
      rw [Nat.add_right_comm] at hrest
      exact hstep.append hrest

/-- With the chunk behind it, a timer set has no use for it. -/
theorem Ready.clear_chunk (h : Ready s i) (hi : s.runchunk.length ≤ i) :
    Ready { s with runchunk := [] } 0 where
  inv :=
    { h.inv with
      chunk := by
        intro j t' _ hslot
        cases hslot
      chunkOnly := by
        intro t' hp
        obtain ⟨j, hj, hslot⟩ := h.inv.chunkOnly t' hp
        unfold chunkAt at hslot
        rw [List.getElem?_eq_none (by omega)] at hslot
        cases hslot }
  next := h.next

/-- The timers that are left in the heap are not due, or were put there by a callback. -/
def Fresh (es : List Event) (s : TimerSet) : Prop :=
  ∀ a ∈ s.heap, a.expiryS ≤ s.timerCheck → ∃ o, .op o ∈ es ∧ o.timer = a.t

theorem runAll_spec (s : TimerSet) (e : σ) (h : Ready s 0) (hd : s.due = true) :
    let r := runAll k (s, e)
    Ready r.1.1 0 ∧ r.1.1.runchunk = [] ∧ Follows s r.2 r.1.1 ∧ r.1.1.timerCheck = s.timerCheck ∧
      Fresh r.2 r.1.1 := by
  obtain ⟨hinv, hp, hno⟩ := fillChunk_spec s.heap.length s h.inv hd (Nat.le_refl _)
  unfold runAll
  dsimp only
  have hready : Ready (fillChunk s.heap.length s).setTimerExpiry 0 := hinv.setTimerExpiry
  have hfull : (fillChunk s.heap.length s).setTimerExpiry.pending = s.pending := hp
  -- nothing in the heap is due when the chunk begins to run
  have hlate : ∀ a ∈ (fillChunk s.heap.length s).setTimerExpiry.heap,
      (fillChunk s.heap.length s).setTimerExpiry.timerCheck < a.expiryS := fun a ha => hinv.not_due hno a ha
  generalize (fillChunk s.heap.length s).setTimerExpiry = full at *
  obtain ⟨hrun, hle, hend⟩ := runChunk_spec k full.runchunk.length 0 full e hready
  generalize runChunk k full.runchunk.length 0 (full, e) = r at *
  have hback := reschedule_spec (full.runchunk.length-r.2.2) r.2.2 r.1.1 hrun.ready
  generalize reschedule (full.runchunk.length-r.2.2) r.2.2 r.1.1 = back at *
  have hpart := hrun.append hback
  have hlen : back.1.runchunk.length = full.runchunk.length := hpart.length
  refine ⟨hback.ready.clear_chunk (by omega), rfl, ⟨?_, ?_⟩, hpart.check.trans ?_, ?_⟩
  · rw [← hfull]
    exact hpart.follows.legal
  · rw [← hfull]
    exact hpart.follows.pending
  · exact congrArg Pending.check hfull
  · intro a ha hae
    rcases hpart.source a ha with hold | hop
    · have hlt := hlate a hold
      rw [← hpart.check] at hlt
      exact absurd hae (Int.not_le.mpr hlt)
    · exact hop

/-- What a run of the timers does, from a state that a run can find. -/
theorem runTimers_spec (now : ℤ) (s : TimerSet) (e : σ) (h : Ready s 0) (hnil : s.runchunk = []) :
    let r := runTimers k now (s, e)
    Ready r.1.1 0 ∧ r.1.1.runchunk = [] ∧ Follows s r.2 r.1.1 ∧
      ((∀ e, k.stop e = false) → s.heap ≠ [] → r.1.1.timerCheck = now ∧ Fresh r.2 r.1.1) := by
  unfold runTimers
  by_cases hidle : s.heap = [] ∨ k.stop e = true
  · rw [if_pos hidle]
    refine ⟨h, hnil, Follows.nil s, fun hgo hsome => ?_⟩
    rcases hidle with hempty | hstop
    · exact absurd hempty hsome
    · rw [hgo e] at hstop
      cases hstop
  rw [if_neg hidle]
  dsimp only
  have hchecked : Ready { s with timerCheck := now } 0 := by
    refine ⟨{ h.inv with chunk := ?_ }, h.next⟩
    intro j t' _ hslot
    unfold chunkAt at hslot
    dsimp only at hslot
    rw [hnil] at hslot
    cases hslot
  have hcheck : Follows s [.check now] { s with timerCheck := now } := ⟨⟨trivial, trivial⟩, rfl⟩
  generalize hs : ({ s with timerCheck := now } : TimerSet) = s₁ at *
  have hnil₁ : s₁.runchunk = [] := by
    rw [← hs]
    exact hnil
  have hnow : s₁.timerCheck = now := by rw [← hs]
  by_cases hd : s₁.due = true
  · rw [if_pos hd]
    obtain ⟨hheap, hlimit, hend⟩ := runHeap_spec k 64 s₁ e hchecked hd
    generalize runHeap k 64 (s₁, e) = r at *
    have hnil₂ : r.1.1.runchunk = [] := List.length_eq_zero_iff.mp (by rw [hheap.length, hnil₁]; rfl)
    cases hlim : r.2.2 with
    | true =>
      rw [if_pos rfl]
      obtain ⟨hready, hclear, hfollows, hsame, hfresh⟩ := runAll_spec k r.1.1 r.1.2 hheap.ready (hlimit hlim)
      refine ⟨hready, hclear, hcheck.append (hheap.follows.append hfollows),
        fun _ _ => ⟨hsame.trans (hheap.check.trans hnow), ?_⟩⟩
      intro a ha hae
      obtain ⟨o, ho, hat⟩ := hfresh a ha hae
      exact ⟨o, List.mem_cons_of_mem _ (List.mem_append_right _ ho), hat⟩
    | false =>
      rw [if_neg Bool.false_ne_true]
      refine ⟨hheap.ready, hnil₂, hcheck.append hheap.follows, fun hgo _ => ⟨hheap.check.trans hnow, ?_⟩⟩
      intro a ha hae
      rcases hend hlim with hno | hstop
      · exact absurd hae (Int.not_le.mpr (hheap.ready.inv.not_due hno a ha))
      · rw [hgo r.1.2] at hstop
        cases hstop
  · rw [if_neg hd]
    refine ⟨hchecked, hnil₁, hcheck, fun _ _ => ⟨hnow, ?_⟩⟩
    intro a ha hae
    exact absurd hae (Int.not_le.mpr (hchecked.inv.not_due (by simpa using hd) a ha))

/-- What a thread does with its timers: it runs them, or something else runs and leaves the rest of
the router in some state. -/
inductive Input (σ : Type) where
  | run (now : ℤ)
  | other (e : σ) (os : List Op)

def step (s : TimerSet × σ) : Input σ → (TimerSet × σ) × List Event
  | .run now => runTimers k now s
  | .other e os => ((os.foldl apply s.1, e), os.map .op)

/-- The invariant between two steps. -/
structure Between (s : TimerSet) : Prop where
  ready : Ready s 0
  clear : s.runchunk = []

theorem Between.step {s : TimerSet × σ} (h : Between s.1) (j : Input σ) :
    Between (step k s j).1.1 ∧ Follows s.1 (step k s j).2 (step k s j).1.1 := by
  cases j with
  | run now =>
    obtain ⟨hready, hclear, hfollows, -⟩ := runTimers_spec k now s.1 s.2 h.ready h.clear
    exact ⟨⟨hready, hclear⟩, hfollows⟩
  | other e os =>
    have hpart := h.ready.ops os
    refine ⟨⟨hpart.ready, List.length_eq_zero_iff.mp (hpart.length.trans ?_)⟩, hpart.follows⟩
    rw [h.clear, List.length_nil]

theorem between_run (now : ℤ) (e : σ) (inputs : List (Input σ)) :
    let s := Runs.final (step k) (start now, e) inputs
    Between s.1 ∧ Follows (start now) (Runs.trace (step k) (start now, e) inputs) s.1 := by
  refine Runs.history_invariant (step k) (start now, e)
    (fun _ es s => Between s.1 ∧ Follows (start now) es s.1) ?_ ?_ inputs
  · exact ⟨⟨⟨inv_start now, Or.inl ⟨rfl, rfl⟩⟩, rfl⟩, Follows.nil _⟩
  · intro is j hi
    obtain ⟨hbetween, hfollows⟩ := hi.1.step k j
    exact ⟨hbetween, hi.2.append hfollows⟩

/-- Between two steps, the pending timers are those of the heap. -/
theorem Between.pending_iff (h : Between s) (t : ℕ) (x : ℤ) :
    s.pending.expiry t = some x ↔ (⟨x, t⟩ : HeapElement) ∈ s.heap := by
  have hnonneg : 0 ≤ s.schedpos1 t := by
    by_contra hneg
    obtain ⟨j, -, hslot⟩ := h.ready.inv.chunkOnly t (by omega)
    unfold chunkAt at hslot
    rw [h.clear] at hslot
    cases hslot
  constructor
  · intro hp
    obtain ⟨h0, hexp⟩ := pending_some_iff.mp hp
    obtain ⟨hlt, hget⟩ := h.ready.inv.at_place (show 0 < s.schedpos1 t by omega)
    rw [← hexp, ← hget]
    exact Heap.get_mem _ hlt
  · intro hmem
    have hpos := h.ready.inv.pos_of_mem hmem
    exact pending_some_iff.mpr ⟨Int.ne_of_gt hpos, (h.ready.inv.expiry _ hmem).symm⟩

/-- The time at which the thread looks again is that of the first pending timer. -/
theorem Between.next_expiry (h : Between s) :
    (∀ t x, s.pending.expiry t = some x → s.timerExpiry ≤ x) ∧
      ((∃ t, s.pending.expiry t = some s.timerExpiry) ∨ s.timerExpiry = 0 ∧ ∀ t, s.pending.expiry t = none) := by
  rcases h.ready.next with ⟨hnil, hzero⟩ | ⟨a, ha, hae, hall⟩
  · have hnone (t : ℕ) : s.pending.expiry t = none := by
      rw [Option.eq_none_iff_forall_not_mem]
      intro x hx
      have hmem := (h.pending_iff t x).mp hx
      rw [hnil] at hmem
      cases hmem
    refine ⟨fun t x hx => ?_, Or.inr ⟨hzero, hnone⟩⟩
    rw [hnone t] at hx
    cases hx
  · refine ⟨fun t x hx => hall _ ((h.pending_iff t x).mp hx), Or.inl ⟨a.t, ?_⟩⟩
    refine (h.pending_iff a.t s.timerExpiry).mpr ?_
    rw [← hae]
    exact ha

/-- Whatever tasks and callbacks do to the timers, and whenever the thread runs them, the heap and the
chunk are a map from timers to expiry times: a timer fires only if it is pending in the map and
due, and is not pending afterwards. The thread wakes for the first pending timer. -/
theorem timers_refine_map (now : ℤ) (e : σ) (inputs : List (Input σ)) :
    let s := (Runs.final (step k) (start now, e) inputs).1
    let es := Runs.trace (step k) (start now, e) inputs
    Legal (start now).pending es ∧ s.pending = es.foldl Pending.apply (start now).pending ∧
      (∀ t x, s.pending.expiry t = some x → s.timerExpiry ≤ x) ∧
      ((∃ t, s.pending.expiry t = some s.timerExpiry) ∨ s.timerExpiry = 0 ∧ ∀ t, s.pending.expiry t = none) := by
  obtain ⟨hbetween, hfollows⟩ := between_run k now e inputs
  exact ⟨hfollows.legal, hfollows.pending, hbetween.next_expiry⟩

/-- What the abstract scheduler does not hear of stays as it is. -/
theorem expiry_foldl (a : Pending) (es : List Event) (t : ℕ) (hfired : .fired t ∉ es)
    (hop : ∀ o, .op o ∈ es → o.timer ≠ t) : (es.foldl Pending.apply a).expiry t = a.expiry t := by
  induction es generalizing a with
  | nil => rfl
  | cons ev es ih =>
    rw [List.foldl_cons, ih (a.apply ev) (fun hmem => hfired (List.mem_cons_of_mem _ hmem))
      (fun o ho => hop o (List.mem_cons_of_mem _ ho))]
    cases ev with
    | check now => rfl
    | fired t' =>
      have hne : t ≠ t' := by
        rintro rfl
        exact hfired List.mem_cons_self
      exact Function.update_of_ne hne _ _
    | op o =>
      have hne := hop o List.mem_cons_self
      cases o with
      | schedule t' time => exact Function.update_of_ne (fun he => hne he.symm) _ _
      | unschedule t' => exact Function.update_of_ne (fun he => hne he.symm) _ _

/-- A run of the timers leaves none behind: every timer that was pending and due has fired, unless
a callback of the same run has scheduled or unscheduled it. That holds for any number of timers,
although the first loop ends after 65, and also if some timer is due again and again. -/
theorem due_timers_fire (now₀ : ℤ) (e₀ : σ) (inputs : List (Input σ)) (now : ℤ)
    (hgo : ∀ e, k.stop e = false) (t : ℕ) (x : ℤ)
    (hpending : (Runs.final (step k) (start now₀, e₀) inputs).1.pending.expiry t = some x) (hdue : x ≤ now) :
    let es := (step k (Runs.final (step k) (start now₀, e₀) inputs) (.run now)).2
    .fired t ∈ es ∨ ∃ o, .op o ∈ es ∧ o.timer = t := by
  obtain ⟨hbetween, -⟩ := between_run k now₀ e₀ inputs
  generalize Runs.final (step k) (start now₀, e₀) inputs = s at *
  intro es
  by_contra hnone
  obtain ⟨hfired, hop⟩ := not_or.mp hnone
  have hop' : ∀ o, .op o ∈ es → o.timer ≠ t := fun o ho hat => hop ⟨o, ho, hat⟩
  have hmem := (hbetween.pending_iff t x).mp hpending
  obtain ⟨hnext, hfollows⟩ := hbetween.step k (.run now)
  obtain ⟨-, -, -, hfresh⟩ := runTimers_spec k now s.1 s.2 hbetween.ready hbetween.clear
  obtain ⟨hcheck, hfresh⟩ := hfresh hgo (List.ne_nil_of_mem hmem)
  -- the timer would still be pending, with the same expiry, and so be due
  have hstill : (step k s (.run now)).1.1.pending.expiry t = some x := by
    rw [hfollows.pending, expiry_foldl s.1.pending es t hfired hop']
    exact hpending
  have hin := (hnext.pending_iff t x).mp hstill
  obtain ⟨o, ho, hat⟩ := hfresh _ hin (by rw [hcheck]; exact hdue)
  exact hop' o ho hat

/-- What the loop of `kill_router` does. Its index stays below the length of the heap, since only what
it takes out makes the heap shorter. -/
theorem killLoop_spec (owned : ℕ → Bool) (j : ℕ) (s : TimerSet) (h : Inv s 0) (hj : j ≤ s.heap.length) :
    let r := killLoop owned j s
    Inv r 0 ∧ r.runchunk = s.runchunk ∧ r.timerCheck = s.timerCheck ∧
      (∀ t, r.pending.expiry t = s.pending.expiry t ∨ owned t = true ∧ r.pending.expiry t = none) ∧
      (j = s.heap.length → (∀ a ∈ s.heap, owned a.t = true) → r.heap = []) := by
  induction j generalizing s with
  | zero => exact ⟨h, rfl, rfl, fun _ => Or.inl rfl, fun h0 _ => List.length_eq_zero_iff.mp h0.symm⟩
  | succ j ih =>
    rw [killLoop]
    dsimp only
    have hlt : j < s.heap.length := hj
    by_cases howned : owned (Heap.get s.heap j).t = true
    -- it goes, and another element is at its place, which is not looked at any more
    · rw [if_pos howned]
      obtain ⟨hinv, hpending⟩ := h.take_out j hlt
      have hlen := h.length_remove j hlt
      have hsub := (h.remove_rebuilt j hlt 0).heap_subset
      dsimp only at hinv hpending hsub
      obtain ⟨hinv', hchunk, hcheck, hkept, hall⟩ := ih _ hinv (show j ≤ (s.remove j).heap.length by omega)
      refine ⟨hinv', hchunk, hcheck, ?_, ?_⟩
      · intro t
        rcases hkept t with hsame | hnone
        · rw [hsame, hpending]
          dsimp only
          by_cases ht : t = (Heap.get s.heap j).t
          · rw [ht, Function.update_self]
            exact Or.inr ⟨howned, rfl⟩
          · rw [Function.update_of_ne ht]
            exact Or.inl rfl
        · exact Or.inr hnone
      · intro hend hevery
        exact hall (show j = (s.remove j).heap.length by omega) (fun a ha => hevery a (hsub a ha))
    · rw [if_neg howned]
      obtain ⟨hinv', hchunk, hcheck, hkept, -⟩ := ih s h (Nat.le_of_lt hlt)
      refine ⟨hinv', hchunk, hcheck, hkept, ?_⟩
      intro _ hevery
      exact absurd (hevery _ (Heap.get_mem _ hlt)) howned

/-- When a router is taken away, the timers of all others are pending as before, and the heap is in order
with the right first expiry. If there is no other router, no timer is left. -/
theorem kill_spares_others (now : ℤ) (e : σ) (inputs : List (Input σ)) (owned : ℕ → Bool) :
    let s := (Runs.final (step k) (start now, e) inputs).1
    let s' := s.killRouter owned
    Between s' ∧ s'.timerCheck = s.timerCheck ∧
      (∀ t, s'.pending.expiry t = s.pending.expiry t ∨ owned t = true ∧ s'.pending.expiry t = none) ∧
      ((∀ t, s.pending.expiry t ≠ none → owned t = true) → ∀ t, s'.pending.expiry t = none) := by
  obtain ⟨hbetween, -⟩ := between_run k now e inputs
  generalize (Runs.final (step k) (start now, e) inputs).1 = s at hbetween
  intro s s'
  obtain ⟨hinv, hchunk, hcheck, hkept, hall⟩ :=
    killLoop_spec owned s.heap.length s hbetween.ready.inv (Nat.le_refl _)
  have hnext : Between s' := ⟨hinv.setTimerExpiry, hchunk.trans hbetween.clear⟩
  refine ⟨hnext, hcheck, hkept, ?_⟩
  intro hevery t
  -- what is pending between two steps is in the heap
  have hnil : s'.heap = [] := by
    refine hall rfl ?_
    intro a ha
    refine hevery a.t ?_
    rw [(hbetween.pending_iff a.t a.expiryS).mpr ha]
    exact Option.some_ne_none _
  rw [Option.eq_none_iff_forall_not_mem]
  intro x hx
  have hmem := (hnext.pending_iff t x).mp hx
  rw [hnil] at hmem
  cases hmem

-- `remove_heap` may put an element of the router where the loop has been: timer 2 stays
example :
    let s := [Op.schedule 1 1, .schedule 2 100, .schedule 3 2, .schedule 4 200, .schedule 5 101, .schedule 6 102,
      .schedule 7 103, .schedule 8 104, .schedule 9 3].foldl apply (start 0)
    let s' := s.killRouter (fun t => t == 2 || t == 5)
    s'.pending.expiry 5 = none ∧ s'.pending.expiry 2 = some 100 := by decide +kernel

end Hooks

end TimerSet

namespace Deployment

/-- Timers that are scheduled again for a second later, as those of the agents are. The state is the
time that the callbacks see. -/
def everySecond : TimerSet.Hooks ℤ := ⟨fun now t => (now, [.schedule t (now+1000000000)]), fun _ => false⟩

end Deployment

namespace TimerSet

theorem second_timer_fires :
    let inputs : List (Input ℤ) := [.other 15 [.schedule 1 10, .schedule 2 20, .schedule 3 12]]
    let es := (step Deployment.everySecond
      (Runs.final (step Deployment.everySecond) (start 5, 5) inputs) (.run 15)).2
    .fired 3 ∈ es ∨ ∃ o, .op o ∈ es ∧ o.timer = 3 :=
  due_timers_fire Deployment.everySecond 5 5 [.other 15 [.schedule 1 10, .schedule 2 20, .schedule 3 12]] 15
    (fun _ => rfl) 3 12 (by decide +kernel) (by decide)

end TimerSet

end MobileIP
