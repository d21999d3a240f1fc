import Mathlib.Data.List.InsertIdx
import MobileIP.PendingRequests

/-! How the pending requests of the mobile node age. `RegReq` keeps the remaining lifetime in
host order and counts it down in network order, so what a tick takes off depends on the byte
that it borrows from. -/
namespace MobileIP

open LittleEndian VectorSearch

/-- A request that has its whole lifetime left. -/
theorem Request.eq_of_fresh (r : Request) (h : r.remLt = r.reqLt) :
    { r with remLt := r.reqLt } = r := by
  cases r
  cases h
  rfl

namespace RegReq

/-- One tick of the timer for one request. -/
def age (r : Request) : Option Request :=
  if 0 < ntohs r.remLt then some { r with remLt := htons (ntohs r.remLt-1) } else none

theorem agePending_eq_filterMap (l : List Request) : agePending l = l.filterMap age := by
  induction l with
  | nil => rfl
  | cons r l ih =>
    by_cases hlt : 0 < ntohs r.remLt
    · simp [agePending, age, hlt, ih]
    · simp [agePending, age, hlt, ih]

/-- What `k` ticks leave of a request that was made with its lifetime. -/
def agedBy (k : ℕ) (r : Request) : Option Request :=
  if k ≤ (ntohs r.reqLt).toNat then some { r with remLt := countdown16 r.reqLt k } else none

theorem bind_age (k : ℕ) (r : Request) : (agedBy k r).bind age = agedBy (k+1) r := by
  by_cases hk : k ≤ (ntohs r.reqLt).toNat
  · -- still pending: the tick tests and decrements the same swapped value
    have hleft : (ntohs (countdown16 r.reqLt k)).toNat = (ntohs r.reqLt).toNat-k :=
      toNat_swap16_countdown16 r.reqLt k hk
    have hpos : 0 < ntohs (countdown16 r.reqLt k) ↔ k+1 ≤ (ntohs r.reqLt).toNat := by
      rw [UInt16.lt_iff_toNat_lt, hleft, UInt16.toNat_zero]
      omega
    have hnext : htons (ntohs (countdown16 r.reqLt k)-1) = countdown16 r.reqLt (k+1) :=
      countdown16_succ r.reqLt k
    rw [agedBy, if_pos hk, Option.bind_some, age, agedBy]
    dsimp only
    rw [hnext]
    exact if_congr hpos rfl rfl
  · have hk' : ¬ k+1 ≤ (ntohs r.reqLt).toNat := by omega
    rw [agedBy, if_neg hk, agedBy, if_neg hk', Option.bind_none]

theorem iterate_agePending (k : ℕ) (l : List Request) (hfresh : ∀ r ∈ l, r.remLt = r.reqLt) :
    agePending^[k] l = l.filterMap (agedBy k) := by
  induction k with
  | zero =>
    have hsome : ∀ r ∈ l, agedBy 0 r = some r := by
      intro r hr
      rw [agedBy, if_pos (Nat.zero_le _), countdown16_zero, r.eq_of_fresh (hfresh r hr)]
    rw [List.filterMap_congr hsome, List.filterMap_some]
    rfl
  | succ k ih =>
    -- the last tick acts on what the others left, one request at a time
    rw [Function.iterate_succ_apply', ih, agePending_eq_filterMap, List.filterMap_filterMap]
    simp only [bind_age]

theorem pending_iterate_runTimer (k : ℕ) (mn : MNInfo) :
    (runTimer^[k] mn).pending = agePending^[k] mn.pending := by
  induction k generalizing mn with
  | zero => rfl
  | succ k ih => exact ih (runTimer mn)

/-- What should be left of a request after `k` ticks. -/
def lasts (k : ℕ) (r : Request) : Option Request :=
  if k ≤ r.reqLt.toNat then some { r with remLt := r.reqLt-UInt16.ofNat k } else none

/-- The byte order does not show after `k` ticks of a request with lifetime `l`. -/
def AgesAlike (k : ℕ) (l : UInt16) : Prop :=
  (l.toNat < k ∧ (ntohs l).toNat < k) ∨
    (k%256 = k/256 ∧ k%256 ≤ l.toNat/256 ∧ k%256 ≤ l.toNat%256)

instance (k : ℕ) (l : UInt16) : Decidable (AgesAlike k l) := inferInstanceAs (Decidable (_ ∨ _))

theorem countdown16_eq_sub_iff (r : UInt16) (k : ℕ) (hk : k ≤ (swap16 r).toNat) :
    countdown16 r k = r-UInt16.ofNat k ↔ k%256 = k/256 ∧ k%256 ≤ r.toNat/256 := by
  have hr : r.toNat < 65536 := r.toNat_lt
  have hlt : (swap16 r).toNat < 65536 := UInt16.toNat_lt _
  have hspent := spent16_lt r k hk
  rw [countdown16_eq r k hk, ← spent16_eq_self_iff, ← UInt16.toNat_inj]
  simp only [UInt16.toNat_sub, UInt16.toNat_ofNat']
  omega

theorem agedBy_eq_lasts_iff (k : ℕ) (r : Request) :
    agedBy k r = lasts k r ↔ AgesAlike k r.reqLt := by
  have hn : (ntohs r.reqLt).toNat = r.reqLt.toNat%256*256+r.reqLt.toNat/256 := toNat_swap16 r.reqLt
  have hr : r.reqLt.toNat < 65536 := r.reqLt.toNat_lt
  unfold agedBy lasts AgesAlike
  -- the code keeps the request for as long as the swapped lifetime says, and it should be kept
  -- for as long as the lifetime itself does
  by_cases hk : k ≤ (ntohs r.reqLt).toNat
  · by_cases hl : k ≤ r.reqLt.toNat
    · have hsub := countdown16_eq_sub_iff r.reqLt k hk
      rw [if_pos hk, if_pos hl, Option.some.injEq, Request.mk.injEq]
      simp only [true_and, and_true]
      rw [hsub]
      omega
    · rw [if_pos hk, if_neg hl]
      simp only [reduceCtorEq, false_iff]
      omega
  · by_cases hl : k ≤ r.reqLt.toNat
    · rw [if_neg hk, if_pos hl]
      simp only [reduceCtorEq, false_iff]
      omega
    · rw [if_neg hk, if_neg hl]
      simp only [true_iff]
      omega

end RegReq

/-- After `k` ticks the requests that were pending have aged as they should, each by itself
and in their order, exactly if the byte order shows for none of them: it has outlived both
readings of its lifetime, or the two bytes of `k` agree and are no more than either byte of
the lifetime. -/
theorem pending_ages_iff (mn : MNInfo) (xs : List RequestCall) (k : ℕ) :
    (RegReq.runTimer^[k] { mn with pending := xs.map RequestCall.request }).pending =
        (xs.map RequestCall.request).filterMap (RegReq.lasts k) ↔
      ∀ x ∈ xs, RegReq.AgesAlike k x.lifetime := by
  let l := xs.map RequestCall.request
  -- a request that is kept can be traced back by its requested lifetime
  let origin (r : Request) : Request := { r with remLt := r.reqLt }
  have hfresh : ∀ r ∈ l, r.remLt = r.reqLt := by
    intro r hr
    obtain ⟨x, -, rfl⟩ := List.mem_map.mp hr
    rfl
  have horigin : ∀ r ∈ l, ∀ lt, origin { r with remLt := lt } = r := by
    intro r hr lt
    exact r.eq_of_fresh (hfresh r hr)
  have haged : ∀ r ∈ l, ∀ b, RegReq.agedBy k r = some b → origin b = r := by
    intro r hr b hb
    unfold RegReq.agedBy at hb
    split_ifs at hb
    rw [← Option.some.inj hb]
    exact horigin r hr _
  have hlasts : ∀ r ∈ l, ∀ b, RegReq.lasts k r = some b → origin b = r := by
    intro r hr b hb
    unfold RegReq.lasts at hb
    split_ifs at hb
    rw [← Option.some.inj hb]
    exact horigin r hr _
  rw [RegReq.pending_iterate_runTimer]
  change RegReq.agePending^[k] l = l.filterMap (RegReq.lasts k) ↔ _
  rw [RegReq.iterate_agePending k l hfresh,
    filterMap_eq_filterMap_iff _ _ origin l haged hlasts]
  simp only [RegReq.agedBy_eq_lasts_iff, l, List.forall_mem_map]
  rfl

/-- A request for 100 seconds has 65379 seconds left after one tick, and is still pending
after 101 ticks. -/
theorem pending_ages_wrong :
    let x : RequestCall := (Deployment.sent ⟨4711, 1⟩).toRequestCall
    let after (k : ℕ) :=
      (RegReq.runTimer^[k] { Deployment.info with pending := [x.request] }).pending
    x.lifetime = 100 ∧ (after 1).map Request.remLt = [65379] ∧ (after 101).length = 1 ∧
      after 1 ≠ [x.request].filterMap (RegReq.lasts 1) ∧
      after 101 ≠ [x.request].filterMap (RegReq.lasts 101) := by
  decide +kernel

/-- Requests that were added to a list of pending ones, with their whole lifetime left. -/
def RegReq.Adds (old new : List Request) : Prop :=
  ∃ fresh, new = old ++ fresh ∧ ∀ r ∈ fresh, r.remLt = r.reqLt

theorem RegReq.adds_refl (l : List Request) : RegReq.Adds l l := ⟨[], by simp, by simp⟩

theorem RegReq.adds_push (mn : MNInfo) (draw : Draw) (adv : Packet) :
    RegReq.Adds mn.pending (RegReq.push mn draw adv).1.pending := by
  rcases RegReq.push_cases mn draw adv with h | ⟨mn₁, dest, lifetime, co, h, hpend, -⟩
  · rw [h]
    exact RegReq.adds_refl _
  · refine ⟨[RegReq.pendingRequest draw dest lifetime co], ?_, ?_⟩
    · rw [h, RegReq.makePacket_eq, ← hpend]
    · intro r hr
      rw [List.mem_singleton.mp hr]
      rfl

namespace Mobile

theorem adds_processed (node : RegNode) (mn : MNInfo) (r : ProcessAdvertisements.Result)
    (draw : Draw) (hmn : ∃ advertisements, r.mn = { mn with advertisements := advertisements }) :
    RegReq.Adds mn.pending (processed node r draw).1.mn.pending := by
  obtain ⟨advertisements, hmn⟩ := hmn
  have hpend : r.mn.pending = mn.pending := by
    rw [hmn]
  unfold processed
  cases (outputs 1 r.acts).head? with
  | none =>
    rw [← hpend]
    exact RegReq.adds_refl _
  | some adv =>
    rw [← hpend]
    exact RegReq.adds_push r.mn draw adv

/-- Only replies and the timer of `RegReq` do something else to the pending requests. -/
theorem adds_step (s : Mobile) (i : Input) (hreply : ∀ p, i ≠ .reply p) (htick : i ≠ .tickRequests) :
    RegReq.Adds s.mn.pending (step s i).1.mn.pending := by
  cases i with
  | packet now draw p =>
    exact adds_processed s.node s.mn _ draw (ProcessAdvertisements.push_frame s.pa s.mn now p)
  | advertise draw adv => exact RegReq.adds_push s.mn draw adv
  | reply p => exact absurd rfl (hreply p)
  | tickRequests => exact absurd rfl htick
  | tickNode draw =>
    unfold step
    dsimp only
    split_ifs
    · rcases RegNode.runTimer_cases s.node s.mn draw with ⟨mn', h, hp, -⟩ | ⟨adv, con, -, h⟩
      · rw [h, ← hp]
        exact RegReq.adds_refl _
      · rw [h]
        exact RegReq.adds_push { s.mn with lifetime := s.mn.lifetime-1 } draw adv
    · exact RegReq.adds_refl _
  | tickAgent now choice draw i =>
    unfold step
    dsimp only
    split_ifs
    · exact adds_processed s.node s.mn _ draw
        (ProcessAdvertisements.runTimer_frame s.pa s.mn now choice i).1
    · exact RegReq.adds_refl _

end Mobile

/-- The mobile node with a clock for each pending request: the ticks of `RegReq` since the
request was made. -/
structure Clocked where
  mobile : Mobile
  clock : List (Request × ℕ)
  deriving DecidableEq, Repr

namespace Clocked

def configure (mn : MNInfo) (registrationAlmostOver : UInt32) : Clocked where
  mobile := Mobile.configure mn registrationAlmostOver
  clock := []

/-- The clocks after a step that leads to `s`. They follow what happens to the pending list,
and have no influence on it. -/
def advance (c : Clocked) (s : Mobile) : Mobile.Input → List (Request × ℕ)
  -- a request that is erased takes its clock along
  | .tickRequests => c.clock.filterMap (fun x => (RegReq.age x.1).map (fun r => (r, x.2+1)))
  -- a reply erases at most the entry where the search stops
  | .reply p =>
    match RegNode.search c.mobile.mn p with
    | some (i, _) =>
      if s.mn.pending.length < c.mobile.mn.pending.length then c.clock.eraseIdx i else c.clock
    | none => c.clock
  -- all other steps add requests at the end, whose clocks start at zero
  | _ => c.clock ++ (s.mn.pending.drop c.clock.length).map (fun r => (r, 0))

def step (c : Clocked) (i : Mobile.Input) : Clocked × List Packet :=
  let r := Mobile.step c.mobile i
  (⟨r.1, c.advance r.1 i⟩, r.2)

theorem mobile_final (c : Clocked) (is : List Mobile.Input) :
    (Runs.final step c is).mobile = Runs.final Mobile.step c.mobile is := by
  induction is generalizing c with
  | nil => rfl
  | cons i is ih => exact ih (step c i).1

/-- The clocks belong to the pending requests, and what is left of a request is what its
clock says, counted down in the wrong byte order. -/
structure Tracks (c : Clocked) : Prop where
  requests : c.clock.map Prod.fst = c.mobile.mn.pending
  countdown : ∀ x ∈ c.clock,
    x.2 ≤ (ntohs x.1.reqLt).toNat ∧ x.1.remLt = countdown16 x.1.reqLt x.2

theorem tracks_adds (c : Clocked) (s : Mobile) (h : Tracks c)
    (hadds : RegReq.Adds c.mobile.mn.pending s.mn.pending) :
    Tracks ⟨s, c.clock ++ (s.mn.pending.drop c.clock.length).map (fun r => (r, 0))⟩ := by
  obtain ⟨fresh, hnew, hfresh⟩ := hadds
  have hlen : c.clock.length = c.mobile.mn.pending.length := by
    rw [← h.requests, List.length_map]
  have hdrop : s.mn.pending.drop c.clock.length = fresh := by
    rw [hnew, hlen, List.drop_left]
  -- what is behind the clocks that there are is exactly what was added
  rw [hdrop]
  constructor
  · have hmap : (fresh.map (fun r => (r, 0))).map Prod.fst = fresh := by
      rw [List.map_map]
      exact List.map_id fresh
    dsimp only
    rw [List.map_append, h.requests, hmap, hnew]
  · intro x hx
    rcases List.mem_append.mp hx with hx | hx
    · exact h.countdown x hx
    · obtain ⟨r, hr, rfl⟩ := List.mem_map.mp hx
      refine ⟨Nat.zero_le _, ?_⟩
      dsimp only
      rw [countdown16_zero, hfresh r hr]

theorem tracks_tick (c : Clocked) (h : Tracks c) : Tracks (step c .tickRequests).1 := by
  constructor
  · change (c.clock.filterMap _).map Prod.fst = RegReq.agePending c.mobile.mn.pending
    rw [RegReq.agePending_eq_filterMap, ← h.requests, List.map_filterMap, List.filterMap_map]
    congr 1
    funext x
    rw [Option.map_map]
    exact Option.map_id'
  · intro x hx
    obtain ⟨y, hy, hxy⟩ := List.mem_filterMap.mp hx
    obtain ⟨r, hr, rfl⟩ := Option.map_eq_some_iff.mp hxy
    obtain ⟨hle, hrem⟩ := h.countdown y hy
    -- the request is what `k` ticks left of it, so one more tick leaves what `k+1` ticks do
    have haged : RegReq.agedBy y.2 { y.1 with remLt := y.1.reqLt } = some y.1 := by
      rw [RegReq.agedBy, if_pos hle]
      dsimp only
      rw [← hrem]
    have hnext := RegReq.bind_age y.2 { y.1 with remLt := y.1.reqLt }
    rw [haged, Option.bind_some, hr, RegReq.agedBy] at hnext
    split_ifs at hnext with hk
    rw [Option.some.inj hnext]
    exact ⟨hk, rfl⟩

theorem tracks_reply (c : Clocked) (p : Packet) (h : Tracks c) :
    Tracks (step c (.reply p)).1 := by
  let s := (Mobile.step c.mobile (.reply p)).1
  have hpush := RegNode.pending_push c.mobile.node c.mobile.mn p
  have hstep : (step c (.reply p)).1 = ⟨s, c.advance s (.reply p)⟩ := rfl
  rw [hstep]
  by_cases hsame : s.mn.pending = c.mobile.mn.pending
  · have hclock : c.advance s (.reply p) = c.clock := by
      have hlen : ¬ s.mn.pending.length < c.mobile.mn.pending.length := by
        rw [hsame]
        exact Nat.lt_irrefl _
      unfold advance
      dsimp only
      split
      · rw [if_neg hlen]
      · rfl
    rw [hclock]
    exact ⟨h.requests.trans hsame.symm, h.countdown⟩
  · obtain ⟨i, r, hsearch, herase⟩ := hpush.resolve_left hsame
    obtain ⟨hget, -⟩ := firstMatch_getElem? _ _ _ _ hsearch
    obtain ⟨hi, -⟩ := List.getElem?_eq_some_iff.mp hget
    have hlen : s.mn.pending.length < c.mobile.mn.pending.length := by
      change (RegNode.push c.mobile.node c.mobile.mn p).2.1.pending.length < _
      rw [herase, List.length_eraseIdx_of_lt hi]
      omega
    have hclock : c.advance s (.reply p) = c.clock.eraseIdx i := by
      unfold advance
      dsimp only
      rw [hsearch]
      exact if_pos hlen
    rw [hclock]
    constructor
    · change (c.clock.eraseIdx i).map Prod.fst = _
      rw [← List.eraseIdx_map, h.requests]
      exact herase.symm
    · intro x hx
      exact h.countdown x (List.mem_of_mem_eraseIdx hx)

theorem tracks_step (c : Clocked) (i : Mobile.Input) (h : Tracks c) : Tracks (step c i).1 := by
  cases i with
  | packet now draw p => exact tracks_adds c _ h (Mobile.adds_step _ _ (by simp) (by simp))
  | advertise draw adv => exact tracks_adds c _ h (Mobile.adds_step _ _ (by simp) (by simp))
  | reply p => exact tracks_reply c p h
  | tickRequests => exact tracks_tick c h
  | tickNode draw => exact tracks_adds c _ h (Mobile.adds_step _ _ (by simp) (by simp))
  | tickAgent now choice draw i =>
    exact tracks_adds c _ h (Mobile.adds_step _ _ (by simp) (by simp))

theorem tracks_final (c : Clocked) (is : List Mobile.Input) (h : Tracks c) :
    Tracks (Runs.final step c is) :=
  Runs.history_invariant step c (fun _ _ c' => Tracks c') h
    (fun is i hi => tracks_step (Runs.final step c is) i hi) is

theorem tracks_configure (mn : MNInfo) (registrationAlmostOver : UInt32) (h : mn.pending = []) :
    Tracks (configure mn registrationAlmostOver) where
  requests := h.symm
  countdown := by
    intro x hx
    cases hx

/-- The request at an index of the pending list has a clock at the same index. -/
theorem Tracks.clock_at {c : Clocked} (h : Tracks c) (i : ℕ) (r : Request)
    (hr : c.mobile.mn.pending[i]? = some r) :
    ∃ e, c.clock[i]? = some (r, e) ∧ e ≤ (ntohs r.reqLt).toNat ∧ r.remLt = countdown16 r.reqLt e := by
  rw [← h.requests, List.getElem?_map] at hr
  obtain ⟨x, hx, rfl⟩ := Option.map_eq_some_iff.mp hr
  exact ⟨x.2, hx, h.countdown x (List.mem_of_getElem? hx)⟩

end Clocked

/-- The lifetime that is left of a grant of `g` seconds after `e` seconds. -/
def remainingOf (g e : ℕ) : ℕ := if e ≤ g then g-e else 0

/-- The byte order of the countdown does not show when a request for `r` seconds is granted
`g` seconds after `e` ticks. -/
def GrantedAlike (r g e : ℕ) : Prop :=
  if e ≤ g then e%256 = e/256 ∧ e%256 ≤ r/256
  else g = e%256*256+e/256+if r/256 < e%256 then 1 else 0

instance (r g e : ℕ) : Decidable (GrantedAlike r g e) := inferInstanceAs (Decidable (ite _ _ _))

/-- What the countdown took off the request is what the grant loses. -/
theorem RegNode.lifetime_register (mn : MNInfo) (r : Request) (rep : RegrepH) (e : ℕ)
    (he : e ≤ (ntohs r.reqLt).toNat) (hrem : r.remLt = countdown16 r.reqLt e) :
    (RegNode.register mn r rep).lifetime =
      ntohs rep.lifetime-UInt16.ofNat (spent16 r.reqLt.toNat e) := by
  have hcancel (a b c : UInt16) : a-b-(a-c) = c-b := by
    apply UInt16.toNat_inj.mp
    simp only [UInt16.toNat_sub]
    have ha : a.toNat < 65536 := a.toNat_lt
    have hb : b.toNat < 65536 := b.toNat_lt
    have hc : c.toNat < 65536 := c.toNat_lt
    omega
  calc
    _ = r.remLt-(r.reqLt-ntohs rep.lifetime) := rfl
    _ = r.reqLt-UInt16.ofNat (spent16 r.reqLt.toNat e)-(r.reqLt-ntohs rep.lifetime) := by
      rw [hrem, countdown16_eq r.reqLt e he]
    _ = _ := hcancel _ _ _

theorem RegNode.lifetime_register_iff (mn : MNInfo) (r : Request) (rep : RegrepH) (e : ℕ)
    (he : e ≤ (ntohs r.reqLt).toNat) (hrem : r.remLt = countdown16 r.reqLt e) :
    (RegNode.register mn r rep).lifetime.toNat = remainingOf (ntohs rep.lifetime).toNat e ↔
      GrantedAlike r.reqLt.toNat (ntohs rep.lifetime).toNat e := by
  have hspent := spent16_lt r.reqLt e he
  have hself := spent16_eq_self_iff r.reqLt.toNat e
  have hg : (ntohs rep.lifetime).toNat < 65536 := UInt16.toNat_lt _
  have hn : (ntohs r.reqLt).toNat < 65536 := UInt16.toNat_lt _
  rw [RegNode.lifetime_register mn r rep e he hrem]
  simp only [UInt16.toNat_sub, UInt16.toNat_ofNat']
  unfold remainingOf GrantedAlike
  -- the grant has not run out, or it has; a difference of zero means that all of it was taken
  by_cases hle : e ≤ (ntohs rep.lifetime).toNat
  · rw [if_pos hle, if_pos hle, ← hself]
    omega
  · rw [if_neg hle, if_neg hle]
    change _ ↔ (ntohs rep.lifetime).toNat = spent16 r.reqLt.toNat e
    omega

/-- A node that accepts a reply is left with what the grant should leave it exactly if the
ticks since the request was made have taken the same off in both byte orders. -/
theorem granted_lifetime_iff (homeAgent homeAddress gateway : IPAddress) (lifetime : UInt16)
    (registrationAlmostOver : UInt32) (is : List Mobile.Input) (p : Packet) (i : ℕ) (r : Request) :
    let c := Runs.final Clocked.step (Clocked.configure
      (MNInfo.configure homeAgent homeAddress gateway lifetime) registrationAlmostOver) is
    let g := (ntohs (RegNode.reph p).lifetime).toNat
    RegNode.search c.mobile.mn p = some (i, r) → RegNode.accepted c.mobile.mn p = some r →
    (RegNode.iph p).ipSrc ≠ c.mobile.mn.gateway →
    ∃ e, c.clock[i]? = some (r, e) ∧
      ((RegNode.push c.mobile.node c.mobile.mn p).2.1.lifetime.toNat = remainingOf g e ↔
        GrantedAlike r.reqLt.toNat g e) := by
  intro c g hsearch hacc hsrc
  have htracks : Clocked.Tracks c :=
    Clocked.tracks_final _ is (Clocked.tracks_configure _ registrationAlmostOver rfl)
  obtain ⟨e, hclock, he, hrem⟩ :=
    htracks.clock_at i r (firstMatch_getElem? _ _ _ _ hsearch).1
  obtain ⟨-, pending, hpush⟩ := RegNode.push_accepted c.mobile.node c.mobile.mn p r hacc
  have hsrc' : (ClickIp.ofBytes p.data).ipSrc ≠ c.mobile.mn.gateway := hsrc
  rw [if_pos hsrc'] at hpush
  refine ⟨e, hclock, ?_⟩
  rw [hpush]
  exact RegNode.lifetime_register_iff c.mobile.mn r (RegNode.reph p) e he hrem

namespace Deployment

def clocked : Clocked := Clocked.configure info 3

/-- The advertisement that makes the node ask for 100 seconds, and the ticks of `RegReq`
before the answer. -/
def answeredAfter (ticks : ℕ) : List Mobile.Input :=
  .packet 0 ⟨4711, 1⟩ foreignAdvertisement :: List.replicate ticks .tickRequests

end Deployment

theorem granted_lifetime_at_once :
    let c := Runs.final Clocked.step Deployment.clocked (Deployment.answeredAfter 0)
    (RegNode.push c.mobile.node c.mobile.mn (Deployment.acceptance ⟨4711, 1⟩)).2.1.lifetime.toNat =
      remainingOf 100 0 := by
  intro c
  let p := Deployment.acceptance ⟨4711, 1⟩
  let r := (Deployment.sent ⟨4711, 1⟩).request
  have hsearch : RegNode.search c.mobile.mn p = some (0, r) := by decide +kernel
  have hacc : RegNode.accepted c.mobile.mn p = some r := by decide +kernel
  have hsrc : (RegNode.iph p).ipSrc ≠ c.mobile.mn.gateway := by decide +kernel
  have hclock : c.clock[0]? = some (r, 0) := by decide +kernel
  have hg : (ntohs (RegNode.reph p).lifetime).toNat = 100 := by decide +kernel
  have hinit : Clocked.configure (MNInfo.configure Deployment.homeAgentPublicAddress
      Deployment.mobileNodeAddress Deployment.homeAgentPrivateAddress 0) 3 = Deployment.clocked := rfl
  have hgrant := granted_lifetime_iff Deployment.homeAgentPublicAddress Deployment.mobileNodeAddress
    Deployment.homeAgentPrivateAddress 0 3 (Deployment.answeredAfter 0) p 0 r
  have hc : Runs.final Clocked.step Deployment.clocked (Deployment.answeredAfter 0) = c := rfl
  have hp : Deployment.acceptance ⟨4711, 1⟩ = p := rfl
  simp only [hinit, hc] at hgrant
  rw [hp]
  -- the run and the bytes of the reply are not looked into any more
  clear_value c p
  obtain ⟨e, he, hiff⟩ := hgrant hsearch hacc hsrc
  have hzero : e = 0 := (Prod.mk.inj (Option.some.inj (he.symm.trans hclock))).2
  have halike : GrantedAlike r.reqLt.toNat 100 0 := by decide
  rw [hzero, hg] at hiff
  exact hiff.mpr halike

/-- The node asks for 100 seconds and is granted them after one tick: it counts 99 seconds as
65379. -/
theorem granted_lifetime_wrong :
    let c := Runs.final Clocked.step Deployment.clocked (Deployment.answeredAfter 1)
    let p := Deployment.acceptance ⟨4711, 1⟩
    c.clock.map Prod.snd = [1] ∧ (RegNode.accepted c.mobile.mn p).isSome = true ∧
      (RegNode.iph p).ipSrc ≠ c.mobile.mn.gateway ∧ ntohs (RegNode.reph p).lifetime = 100 ∧
      (RegNode.push c.mobile.node c.mobile.mn p).2.1.lifetime = 65379 ∧
      (RegNode.push c.mobile.node c.mobile.mn p).2.1.lifetime.toNat ≠ remainingOf 100 1 := by
  decide +kernel

end MobileIP
