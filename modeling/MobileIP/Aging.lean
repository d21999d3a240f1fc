import MobileIP.AgentTimers
import MobileIP.MobileRuns

/-! What time does to a mobile node: its stored advertisements lose nothing but their lifetime,
and a tick of `RegNode` counts its registration down. -/
namespace MobileIP

open LittleEndian VectorSearch

namespace RegReq

/-- What `RegReq` reads of an advertisement. -/
def headers (q : Packet) : ClickIp × AdvertisementHE := (aip q, ahx q)

theorem returnsHome_congr (mn mn' : MNInfo) (q q' : Packet) (hgw : mn'.gateway = mn.gateway)
    (hfa : mn'.foreignAgent = mn.foreignAgent) (hq : headers q' = headers q) :
    returnsHome mn' q' ↔ returnsHome mn q := by
  have hip : aip q' = aip q := congrArg Prod.fst hq
  have hext : ahx q' = ahx q := congrArg Prod.snd hq
  unfold returnsHome home
  rw [hgw, hfa, hip, hext]

theorem advertisements_push (mn : MNInfo) (draw : Draw) (q : Packet) :
    (push mn draw q).1.advertisements = mn.advertisements := by
  unfold push
  dsimp only
  by_cases hsrc : (aip q).ipSrc = mn.gateway
  · rw [if_pos hsrc]
    split_ifs
    · rfl
    · rfl
  · rw [if_neg hsrc]
    split_ifs
    · rfl
    · rfl

end RegReq

namespace ProcessAdvertisements

/-- An advertisement is long enough to have a lifetime. -/
theorem length_of_advertises (p : Packet) (h : advertises p) : 28 ≤ p.data.length := by
  by_contra hshort
  have hext : (ahe p).type = 0 := by
    apply byteAt_of_length_le
    rw [List.length_drop]
    change p.data.length-36 ≤ 0
    omega
  rw [h.2.2] at hext
  cases hext

/-- Counting down changes neither the IP header nor the extension. -/
theorem headers_withLifetime (p : Packet) (lifetime : UInt16) (h : 28 ≤ p.data.length) :
    RegReq.headers (withLifetime p lifetime) = RegReq.headers p ∧
      (withLifetime p lifetime).data.length = p.data.length := by
  -- the lifetime is bytes 26 and 27, between the IP header and the extension
  have htake : (p.data.take (sizeofClickIp+6)).length = 26 := by
    rw [List.length_take]
    change min 26 _ = 26
    omega
  have hbyte : ∀ j < 20, byteAt (withLifetime p lifetime).data j = byteAt p.data j := by
    intro j hj
    apply byteAt_take_append
    · change j < 26
      omega
    · change 26 ≤ _
      omega
  have hip : RegReq.aip (withLifetime p lifetime) = RegReq.aip p := by
    simp [RegReq.aip, ClickIp.ofBytes, u16At, u32At, hbyte]
  have hext : RegReq.ahx (withLifetime p lifetime) = RegReq.ahx p := by
    have hdrop : (withLifetime p lifetime).data.drop 36 = p.data.drop 36 := by
      have hsplit : 36 = (p.data.take (sizeofClickIp+6)).length+10 := by omega
      unfold withLifetime
      dsimp only
      conv_lhs => rw [hsplit]
      rw [← List.drop_drop, List.drop_left]
      change (p.data.drop 28).drop 8 = _
      rw [List.drop_drop]
    exact congrArg AdvertisementHE.ofBytes hdrop
  refine ⟨Prod.ext hip hext, ?_⟩
  unfold withLifetime
  dsimp only
  rw [List.length_append, htake, List.length_append, List.length_drop]
  change 26+(2+(p.data.length-28)) = _
  omega

/-- An advertisement as it was received, or with another lifetime. -/
def Aged (p q : Packet) : Prop := q = p ∨ ∃ lifetime, q = withLifetime p lifetime

theorem Aged.headers {p q : Packet} (h : Aged p q) (hlen : 28 ≤ p.data.length) :
    RegReq.headers q = RegReq.headers p := by
  rcases h with rfl | ⟨lifetime, rfl⟩
  · rfl
  · exact (headers_withLifetime p lifetime hlen).1

/-- Every stored advertisement is long enough to have a lifetime. -/
def Sized (mn : MNInfo) : Prop := ∀ x ∈ mn.advertisements, 28 ≤ x.2.data.length

theorem Sized.congr {mn mn' : MNInfo} (h : Sized mn)
    (hadv : mn'.advertisements = mn.advertisements) : Sized mn' := by
  unfold Sized
  rw [hadv]
  exact h

theorem Sized.lookup {mn : MNInfo} (h : Sized mn) (a : IPAddress) (p : Packet)
    (hp : mn.advertisements.lookup a = some p) : 28 ≤ p.data.length := by
  obtain ⟨pre, post, hl, -⟩ := List.lookup_eq_some_iff.mp hp
  apply h (a, p)
  rw [hl]
  simp

theorem sized_push (pa : ProcessAdvertisements) (mn : MNInfo) (now : ℕ) (packet : Packet)
    (h : Sized mn) : Sized (push pa mn now packet).mn := by
  have hothers : ∀ x ∈ mn.advertisements.filter (fun adv => adv.1 ≠ (ah packet).address),
      28 ≤ x.2.data.length := fun x hx => h x (List.mem_of_mem_filter hx)
  by_cases hadv : advertises packet
  · have hstored : ∀ x ∈ ((ah packet).address, packet) ::
        mn.advertisements.filter (fun adv => adv.1 ≠ (ah packet).address),
        28 ≤ x.2.data.length := by
      intro x hx
      rcases List.mem_cons.mp hx with rfl | hx
      · exact length_of_advertises packet hadv
      · exact hothers x hx
    unfold push
    dsimp only
    rw [if_pos hadv]
    by_cases hbusy : busy packet
    · rw [if_pos hbusy]
      exact hothers
    · rw [if_neg hbusy]
      by_cases hatt : attempts mn packet
      · rw [if_pos hatt]
        exact hstored
      · rw [if_neg hatt]
        exact hstored
  · rw [push, if_neg hadv]
    exact h

/-- A timer changes no header of a stored advertisement, and drops none. -/
theorem headers_runTimer (pa : ProcessAdvertisements) (mn : MNInfo) (now choice i : ℕ)
    (h : Sized mn) :
    Sized (runTimer pa mn now choice i).mn ∧
      ∀ agent, ((runTimer pa mn now choice i).mn.advertisements.lookup agent).map RegReq.headers =
        (mn.advertisements.lookup agent).map RegReq.headers := by
  cases hget : pa.timers[i]? with
  | none =>
    rw [runTimer, hget]
    exact ⟨h, fun _ => rfl⟩
  | some t =>
    cases hp : mn.advertisements.lookup t.agent with
    | none =>
      rw [runTimer, hget]
      dsimp only
      rw [hp]
      exact ⟨h, fun _ => rfl⟩
    | some p =>
      -- only a lifetime that is counted down writes to the packet
      by_cases hlt : 0 < ntohs (ah p).lifetime
      · obtain ⟨hhead, hlen⟩ := headers_withLifetime p (ntohs (ah p).lifetime-1) (h.lookup _ p hp)
        rw [(runTimer_counted pa mn now choice i t p hget hp hlt).2, (retry_frame _ _ _ _).1]
        refine ⟨?_, ?_⟩
        · intro x hx
          obtain ⟨y, hy, rfl⟩ := List.mem_map.mp hx
          split_ifs
          · dsimp only
            rw [hlen]
            exact h.lookup _ p hp
          · exact h y hy
        · intro agent
          rw [countDown]
          dsimp only
          rw [lookup_replace, Option.map_map]
          by_cases hagent : agent = t.agent
          · rw [hagent, hp, Option.map_some, Option.map_some, Function.comp_apply, if_pos rfl, hhead]
          · congr 1
            funext q
            rw [Function.comp_apply, if_neg hagent]
      · rw [(runTimer_found pa mn now choice i t p hget hp hlt).2]
        exact ⟨h, fun _ => rfl⟩

end ProcessAdvertisements

namespace RegNode

/-- The advertisement that a tick hands to `RegReq` if there is a lifetime to count down. -/
def renewal (node : RegNode) (mn : MNInfo) : Option Packet :=
  if (mn.lifetime-1).toUInt32 = node.registrationAlmostOver then
    mn.advertisements.lookup mn.foreignAgent
  else none

/-- The end of a tick: a registration with no lifetime left is over. -/
def expire (mn : MNInfo) : MNInfo :=
  if mn.lifetime = 0 then { mn with connected := false } else mn

theorem registration_expire (mn : MNInfo) :
    (expire mn).gateway = mn.gateway ∧ (expire mn).advertisements = mn.advertisements ∧
      (expire mn).registration =
        (if mn.lifetime = 0 then false else mn.connected, mn.foreignAgent, mn.lifetime) := by
  unfold expire MNInfo.registration
  by_cases hl : mn.lifetime = 0
  · simp [hl]
  · simp [hl]

theorem runTimer_stopped (node : RegNode) (mn : MNInfo) (draw : Draw) (hl : mn.lifetime = 0) :
    runTimer node mn draw = ({ node with timer := true }, mn, [], []) := by
  have hl' : ¬ 0 < mn.lifetime := by
    rw [hl]
    decide
  unfold runTimer
  dsimp only
  rw [if_neg hl']

/-- One second of a registration: the renewal is the only thing that can do more than count. -/
theorem runTimer_running (node : RegNode) (mn : MNInfo) (draw : Draw) (hl : 0 < mn.lifetime) :
    let r := runTimer node mn draw
    let mn' := (renewal node mn).elim { mn with lifetime := mn.lifetime-1 }
      (fun q => (RegReq.push { mn with lifetime := mn.lifetime-1 } draw q).1)
    r.1 = { node with timer := true } ∧ outputs 0 r.2.2.1 = (renewal node mn).toList ∧
      r.2.1 = expire mn' := by
  unfold runTimer renewal expire
  dsimp only
  rw [if_pos hl]
  generalize (if (mn.lifetime-1).toUInt32 = node.registrationAlmostOver then
    mn.advertisements.lookup mn.foreignAgent else none) = adv
  cases adv with
  | none => exact ⟨rfl, rfl, rfl⟩
  | some q => exact ⟨rfl, rfl, rfl⟩

/-- A renewal that tells of home ends the registration at once. -/
theorem registration_running (node : RegNode) (mn : MNInfo) (draw : Draw) (hl : 0 < mn.lifetime) :
    let mn' := (runTimer node mn draw).2.1
    mn'.gateway = mn.gateway ∧ mn'.advertisements = mn.advertisements ∧
      mn'.registration =
        if ∃ q ∈ renewal node mn, RegReq.returnsHome mn q then (false, mn.gateway, 0)
        else (if mn.lifetime-1 = 0 then false else mn.connected, mn.foreignAgent, mn.lifetime-1) := by
  obtain ⟨-, -, hmn⟩ := runTimer_running node mn draw hl
  intro mn'
  let counted : MNInfo := { mn with lifetime := mn.lifetime-1 }
  change mn' = expire _ at hmn
  rw [hmn]
  cases renewal node mn with
  | none =>
    obtain ⟨hgw, hadv, hreg⟩ := registration_expire counted
    refine ⟨hgw, hadv, ?_⟩
    simp only [Option.not_mem_none, false_and, exists_false, if_false]
    exact hreg
  | some q =>
    obtain ⟨hgw, hadv, hreg⟩ := registration_expire (RegReq.push counted draw q).1
    have hgw' := (RegReq.registration_push counted draw q).1
    refine ⟨hgw.trans hgw', hadv.trans (RegReq.advertisements_push counted draw q), ?_⟩
    have hhome : (∃ q' ∈ some q, RegReq.returnsHome mn q') ↔ RegReq.returnsHome counted q := by
      simp only [Option.mem_def, Option.some.injEq, exists_eq_left']
      exact Iff.rfl
    refine hreg.trans ?_
    by_cases hret : RegReq.returnsHome counted q
    · obtain ⟨-, hfa, hlt⟩ := RegReq.push_of_returnsHome counted draw q hret
      rw [if_pos (hhome.mpr hret), hfa, hlt, if_pos rfl]
    · obtain ⟨hcon, hfa, hlt⟩ := RegReq.push_of_not_returnsHome counted draw q hret
      rw [if_neg (fun hc => hret (hhome.mp hc)), hcon, hfa, hlt]

end RegNode

namespace Mobile

/-- What holds of a mobile node in every run. A registration that is counted down is one away
from home. -/
structure Sound (registrationAlmostOver : UInt32) (s : Mobile) : Prop where
  almostOver : s.node.registrationAlmostOver = registrationAlmostOver
  sized : ProcessAdvertisements.Sized s.mn
  away : s.mn.connected = true → 0 < s.mn.lifetime → s.mn.foreignAgent ≠ s.mn.gateway

section Sound

variable {registrationAlmostOver : UInt32} {s : Mobile} (h : Sound registrationAlmostOver s)
include h

theorem Sound.regReq (pa : ProcessAdvertisements) (draw : Draw) (adv : Packet) :
    Sound registrationAlmostOver ⟨pa, s.node, (RegReq.push s.mn draw adv).1⟩ := by
  have hgw := (RegReq.registration_push s.mn draw adv).1
  refine ⟨h.almostOver, h.sized.congr (RegReq.advertisements_push s.mn draw adv), ?_⟩
  dsimp only
  by_cases hret : RegReq.returnsHome s.mn adv
  · -- the node counts itself home, but has no lifetime left either
    rw [(RegReq.push_of_returnsHome s.mn draw adv hret).2.2]
    exact fun _ hl => absurd hl (by decide)
  · obtain ⟨hcon, hfa, hlt⟩ := RegReq.push_of_not_returnsHome s.mn draw adv hret
    rw [hcon, hfa, hlt, hgw]
    exact h.away

theorem Sound.processed (r : ProcessAdvertisements.Result) (draw : Draw)
    (hmn : ∃ advertisements, r.mn = { s.mn with advertisements := advertisements })
    (hsized : ProcessAdvertisements.Sized r.mn) :
    Sound registrationAlmostOver (processed s.node r draw).1 := by
  obtain ⟨advertisements, hmn⟩ := hmn
  have hbetween : Sound registrationAlmostOver ⟨r.pa, s.node, r.mn⟩ := by
    refine ⟨h.almostOver, hsized, ?_⟩
    dsimp only
    rw [hmn]
    exact h.away
  unfold Mobile.processed
  cases (outputs 1 r.acts).head? with
  | none => exact hbetween
  | some adv => exact hbetween.regReq r.pa draw adv

theorem Sound.reply (p : Packet) : Sound registrationAlmostOver (step s (.reply p)).1 := by
  unfold step
  dsimp only
  cases hacc : RegNode.accepted s.mn p with
  | none =>
    obtain ⟨pending, hpush⟩ := RegNode.push_not_accepted s.node s.mn p hacc
    rw [hpush]
    exact ⟨h.almostOver, h.sized, h.away⟩
  | some r =>
    obtain ⟨hdest, pending, hpush⟩ := RegNode.push_accepted s.node s.mn p r hacc
    rw [hpush]
    split_ifs with hsrc
    · -- the foreign agent is now the sender of the reply, which is not the gateway
      refine ⟨h.almostOver, h.sized, ?_⟩
      intro _ _
      change r.dest ≠ s.mn.gateway
      rw [hdest]
      exact hsrc
    · exact ⟨h.almostOver, h.sized, h.away⟩

theorem Sound.tickNode (draw : Draw) :
    Sound registrationAlmostOver (step s (.tickNode draw)).1 := by
  unfold step
  dsimp only
  split_ifs
  · by_cases hl : 0 < s.mn.lifetime
    · obtain ⟨hnode, -, -⟩ := RegNode.runTimer_running s.node s.mn draw hl
      obtain ⟨hgw, hadv, -⟩ := RegNode.registration_running s.node s.mn draw hl
      obtain ⟨-, hcon⟩ := RegNode.registration_runTimer s.node s.mn draw hl
      refine ⟨?_, h.sized.congr hadv, ?_⟩
      · dsimp only
        rw [hnode]
        exact h.almostOver
      · intro hc _
        obtain ⟨hc', -, hfa, -⟩ := hcon hc
        dsimp only
        rw [hfa, hgw]
        exact h.away hc' hl
    · have hzero : s.mn.lifetime = 0 := by
        rw [UInt16.pos_iff_ne_zero, not_not] at hl
        exact hl
      rw [RegNode.runTimer_stopped s.node s.mn draw hzero]
      exact ⟨h.almostOver, h.sized, h.away⟩
  · exact h

theorem Sound.step (i : Input) : Sound registrationAlmostOver (step s i).1 := by
  cases i with
  | packet now draw p =>
    exact h.processed _ draw (ProcessAdvertisements.push_frame s.pa s.mn now p)
      (ProcessAdvertisements.sized_push s.pa s.mn now p h.sized)
  | advertise draw adv => exact h.regReq s.pa draw adv
  | reply p => exact h.reply p
  | tickRequests => exact ⟨h.almostOver, h.sized, h.away⟩
  | tickNode draw => exact h.tickNode draw
  | tickAgent now choice draw i =>
    unfold Mobile.step
    dsimp only
    split_ifs
    · exact h.processed _ draw (ProcessAdvertisements.runTimer_frame s.pa s.mn now choice i).1
        (ProcessAdvertisements.headers_runTimer s.pa s.mn now choice i h.sized).1
    · exact h

end Sound

theorem sound_final (homeAgent homeAddress gateway : IPAddress) (lifetime : UInt16)
    (registrationAlmostOver : UInt32) (is : List Input) :
    Sound registrationAlmostOver (Runs.final step
      (configure (MNInfo.configure homeAgent homeAddress gateway lifetime) registrationAlmostOver)
      is) := by
  apply Runs.history_invariant step _ (fun _ _ s => Sound registrationAlmostOver s)
  · refine ⟨rfl, ?_, ?_⟩
    · intro x hx
      cases hx
    · intro hc
      cases hc
  · intro is i h
    exact h.step i

end Mobile

end MobileIP
