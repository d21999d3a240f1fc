import MobileIP.ProcessAdvertisements
import MobileIP.Advertisement
import MobileIP.Messages
import MobileIP.Library.Runs

/-! The mobile node as a machine: `ProcessAdvertisements`, `RegReq` and `RegNode` over
their shared state, with every order of packets and timers. -/
namespace MobileIP

open LittleEndian VectorSearch

structure Mobile where
  pa : ProcessAdvertisements
  node : RegNode
  mn : MNInfo
  deriving DecidableEq, Repr

namespace Mobile

def configure (mn : MNInfo) (registrationAlmostOver : UInt32) : Mobile where
  pa := ProcessAdvertisements.configure
  node := ⟨registrationAlmostOver, false⟩
  mn := mn

inductive Input where
  -- a packet reaches `ProcessAdvertisements`
  | packet (now : ℕ) (draw : Draw) (p : Packet)
  -- an advertisement reaches `RegReq`
  | advertise (draw : Draw) (adv : Packet)
  -- a reply reaches `RegNode`
  | reply (p : Packet)
  -- the timers of `RegReq`, of `RegNode` and of the agent in a slot
  | tickRequests
  | tickNode (draw : Draw)
  | tickAgent (now choice : ℕ) (draw : Draw) (i : ℕ)

/-- Output 1 of `ProcessAdvertisements` is wired to `RegReq`. -/
def processed (node : RegNode) (r : ProcessAdvertisements.Result) (draw : Draw) :
    Mobile × List Packet :=
  match (outputs 1 r.acts).head? with
  | some adv =>
    let q := RegReq.push r.mn draw adv
    (⟨r.pa, node, q.1⟩, outputs 0 q.2)
  | none => (⟨r.pa, node, r.mn⟩, [])

/-- A step and the requests that it sends. A timer that is not scheduled does not fire. -/
def step (s : Mobile) : Input → Mobile × List Packet
  | .packet now draw p => processed s.node (ProcessAdvertisements.push s.pa s.mn now p) draw
  | .advertise draw adv =>
    let q := RegReq.push s.mn draw adv
    ({ s with mn := q.1 }, outputs 0 q.2)
  | .reply p =>
    let r := RegNode.push s.node s.mn p
    ({ s with node := r.1, mn := r.2.1 }, [])
  | .tickRequests => ({ s with mn := RegReq.runTimer s.mn }, [])
  | .tickNode draw =>
    if s.node.timer then
      let r := RegNode.runTimer s.node s.mn draw
      ({ s with node := r.1, mn := r.2.1 }, outputs 0 r.2.2.2)
    else (s, [])
  | .tickAgent now choice draw i =>
    if (s.pa.timers[i]?.any AgentTimer.scheduled) then
      processed s.node (ProcessAdvertisements.runTimer s.pa s.mn now choice i) draw
    else (s, [])

/-- A connected node has a registration with a foreign agent and a countdown that runs. -/
def Live (s : Mobile) : Prop :=
  s.mn.connected = true →
    0 < s.mn.lifetime ∧ s.mn.foreignAgent ≠ s.mn.gateway ∧ s.node.timer = true

instance (s : Mobile) : Decidable (Live s) := inferInstanceAs (Decidable (_ → _))

end Mobile

/-- An advertisement that tells the node that it is home again. -/
def RegReq.returnsHome (mn : MNInfo) (q : Packet) : Prop :=
  (RegReq.aip q).ipSrc = mn.gateway ∧ mn.foreignAgent ≠ mn.gateway ∧ RegReq.home q

instance (mn : MNInfo) (q : Packet) : Decidable (RegReq.returnsHome mn q) :=
  inferInstanceAs (Decidable (_ ∧ _ ∧ _))

/-- The pending request that an accepting reply answers. -/
def RegNode.accepted (mn : MNInfo) (p : Packet) : Option Request :=
  let iph := ClickIp.ofBytes p.data
  let udph := ClickUdp.ofBytes (p.data.drop sizeofClickIp)
  let reph := RegrepH.ofBytes (p.data.drop (sizeofClickIp+sizeofClickUdp))
  match firstMatch (RegNode.answers iph udph) mn.pending with
  | some (_, r) =>
    if badUdpChecksum p.data = false ∧ reph.identification.toUInt32 = r.id ∧
      (reph.code = 0 ∨ reph.code = 1) then some r else none
  | none => none

/-- The part of `MNInfo` that describes the registration. -/
def MNInfo.registration (mn : MNInfo) : Bool × IPAddress × UInt16 :=
  (mn.connected, mn.foreignAgent, mn.lifetime)

/-- What `RegReq` does to the registration: an advertisement from home ends it, and no
other touches it. -/
theorem RegReq.registration_push (mn : MNInfo) (draw : Draw) (q : Packet) :
    (RegReq.push mn draw q).1.gateway = mn.gateway ∧
      (RegReq.push mn draw q).1.registration =
        if RegReq.returnsHome mn q then (mn.connected, mn.gateway, 0) else mn.registration := by
  -- the branches of the source: home after a journey, home already, a foreign agent
  unfold RegReq.push
  dsimp only
  by_cases hsrc : (RegReq.aip q).ipSrc = mn.gateway
  · rw [if_pos hsrc]
    by_cases hh : mn.foreignAgent ≠ mn.gateway ∧ RegReq.home q
    · have hret : RegReq.returnsHome mn q := ⟨hsrc, hh⟩
      rw [if_pos hh, if_pos hret]
      exact ⟨rfl, rfl⟩
    · have hret : ¬ RegReq.returnsHome mn q := fun h => hh h.2
      rw [if_neg hh, if_neg hret]
      exact ⟨rfl, rfl⟩
  · have hret : ¬ RegReq.returnsHome mn q := fun h => hsrc h.1
    rw [if_neg hsrc, if_neg hret]
    by_cases hf : RegReq.foreign q
    · rw [if_pos hf]
      exact ⟨rfl, rfl⟩
    · rw [if_neg hf]
      exact ⟨rfl, rfl⟩

theorem RegReq.push_of_returnsHome (mn : MNInfo) (draw : Draw) (q : Packet)
    (h : RegReq.returnsHome mn q) :
    (RegReq.push mn draw q).1.connected = mn.connected ∧
      (RegReq.push mn draw q).1.foreignAgent = mn.gateway ∧
      (RegReq.push mn draw q).1.lifetime = 0 := by
  have hreg := (RegReq.registration_push mn draw q).2
  rw [if_pos h] at hreg
  simpa only [MNInfo.registration, Prod.mk.injEq] using hreg

theorem RegReq.push_of_not_returnsHome (mn : MNInfo) (draw : Draw) (q : Packet)
    (h : ¬ RegReq.returnsHome mn q) :
    (RegReq.push mn draw q).1.connected = mn.connected ∧
      (RegReq.push mn draw q).1.foreignAgent = mn.foreignAgent ∧
      (RegReq.push mn draw q).1.lifetime = mn.lifetime := by
  have hreg := (RegReq.registration_push mn draw q).2
  rw [if_neg h] at hreg
  simpa only [MNInfo.registration, Prod.mk.injEq] using hreg

/-- A reply that is not accepted changes nothing but the pending requests. -/
theorem RegNode.push_not_accepted (node : RegNode) (mn : MNInfo) (p : Packet)
    (h : RegNode.accepted mn p = none) :
    ∃ pending, RegNode.push node mn p = (node, { mn with pending := pending }, [.kill]) := by
  unfold RegNode.accepted at h
  unfold RegNode.push
  dsimp only at h ⊢
  split
  · exact ⟨mn.pending, rfl⟩
  · next i r hm =>
    rw [hm] at h
    dsimp only at h
    -- two of the five branches accept, which `h` excludes
    split_ifs with hsum hid hcode hsrc
    · exact ⟨_, rfl⟩
    · exact ⟨mn.pending, rfl⟩
    · exact absurd h (by simp [hsum, not_not.mp hid, hcode])
    · exact absurd h (by simp [hsum, not_not.mp hid, hcode])
    · exact ⟨_, rfl⟩

/-- An accepted reply starts the countdown of a foreign registration, or stops it if the
reply is from home. -/
theorem RegNode.push_accepted (node : RegNode) (mn : MNInfo) (p : Packet) (r : Request)
    (h : RegNode.accepted mn p = some r) :
    r.dest = (ClickIp.ofBytes p.data).ipSrc ∧
      ∃ pending, RegNode.push node mn p =
        if (ClickIp.ofBytes p.data).ipSrc ≠ mn.gateway then
          ({ node with timer := true },
            { RegNode.register mn r (RegrepH.ofBytes (p.data.drop (sizeofClickIp+sizeofClickUdp)))
              with pending := pending }, [.kill])
        else ({ node with timer := false }, { mn with pending := pending }, [.kill]) := by
  unfold RegNode.accepted at h
  unfold RegNode.push
  dsimp only at h ⊢
  split
  · next hm =>
    rw [hm] at h
    cases h
  · next i r' hm =>
    rw [hm] at h
    dsimp only at h
    split_ifs at h with hall
    obtain rfl := Option.some.inj h
    obtain ⟨hsum, hid, hcode⟩ := hall
    have hr := (RegNode.answers_iff _ _ _).mp (firstMatch_getElem? _ _ _ _ hm).2
    -- the sender of the reply is the agent that the request went to
    refine ⟨hr.1, mn.pending.eraseIdx i, ?_⟩
    rw [hsum, if_neg Bool.false_ne_true, if_neg (not_not_intro hid), if_pos hcode]

theorem RegNode.timer_runTimer (node : RegNode) (mn : MNInfo) (draw : Draw) :
    (RegNode.runTimer node mn draw).1.timer = true := by
  rcases RegNode.runTimer_cases node mn draw with ⟨mn', h, -⟩ | ⟨adv, connected, -, h⟩
  · rw [h]
  · rw [h]

/-- What the countdown does: a node that is still connected afterwards has the same
foreign agent, and one second less. -/
theorem RegNode.registration_runTimer (node : RegNode) (mn : MNInfo) (draw : Draw)
    (hl : 0 < mn.lifetime) :
    let mn' := (RegNode.runTimer node mn draw).2.1
    mn'.gateway = mn.gateway ∧
      (mn'.connected = true → mn.connected = true ∧ 0 < mn'.lifetime ∧
        mn'.foreignAgent = mn.foreignAgent ∧ mn'.lifetime = mn.lifetime-1) := by
  unfold RegNode.runTimer
  dsimp only
  rw [if_pos hl]
  generalize (if (mn.lifetime-1).toUInt32 = node.registrationAlmostOver then
    mn.advertisements.lookup mn.foreignAgent else none) = renewal
  cases renewal with
  | none =>
    dsimp only
    split_ifs with hz
    · exact ⟨rfl, fun h => by cases h⟩
    · exact ⟨rfl, fun h => ⟨h, UInt16.pos_iff_ne_zero.mpr hz, rfl, rfl⟩⟩
  | some adv =>
    dsimp only
    -- an advertisement from home sets the lifetime to zero, which disconnects as well
    have hgw := (RegReq.registration_push { mn with lifetime := mn.lifetime-1 } draw adv).1
    split_ifs with hz
    · exact ⟨hgw, fun h => by cases h⟩
    · refine ⟨hgw, fun h => ?_⟩
      have haway : ¬ RegReq.returnsHome { mn with lifetime := mn.lifetime-1 } adv :=
        fun hret => hz (RegReq.push_of_returnsHome _ draw adv hret).2.2
      obtain ⟨hcon, hfa, hlt⟩ := RegReq.push_of_not_returnsHome _ draw adv haway
      exact ⟨hcon ▸ h, UInt16.pos_iff_ne_zero.mpr hz, hfa, hlt⟩

namespace Mobile

/-- The steps that keep a connected node's registration alive. `RegReq` must not hear of
home while the node is connected, an accepted reply must leave a positive lifetime, and
the reply of home must not come while the node is connected. -/
def KeepsLive (s : Mobile) : Input → Prop
  | .packet _ _ p =>
    ¬ (s.mn.connected = true ∧ ProcessAdvertisements.advertises p ∧
      ¬ ProcessAdvertisements.busy p ∧ ProcessAdvertisements.attempts s.mn p ∧
      RegReq.returnsHome s.mn p)
  | .advertise _ adv => ¬ (s.mn.connected = true ∧ RegReq.returnsHome s.mn adv)
  | .reply p =>
    ∀ r ∈ RegNode.accepted s.mn p,
      if (ClickIp.ofBytes p.data).ipSrc ≠ s.mn.gateway then
        r.remLt ≠ r.reqLt-
          ntohs (RegrepH.ofBytes (p.data.drop (sizeofClickIp+sizeofClickUdp))).lifetime
      else s.mn.connected = false
  | .tickRequests => True
  | .tickNode _ => True
  | .tickAgent _ _ _ _ => True

instance (s : Mobile) : (i : Input) → Decidable (KeepsLive s i)
  | .packet _ _ _ => inferInstanceAs (Decidable (¬ _))
  | .advertise _ _ => inferInstanceAs (Decidable (¬ _))
  | .reply _ => inferInstanceAs (Decidable (∀ r ∈ _, _))
  | .tickRequests => inferInstanceAs (Decidable True)
  | .tickNode _ => inferInstanceAs (Decidable True)
  | .tickAgent _ _ _ _ => inferInstanceAs (Decidable True)

/-- Whether a node is live depends on its registration and its countdown alone. -/
theorem live_congr (s t : Mobile) (hreg : t.mn.registration = s.mn.registration)
    (hgw : t.mn.gateway = s.mn.gateway) (htimer : t.node.timer = s.node.timer) :
    Live t ↔ Live s := by
  simp only [MNInfo.registration, Prod.mk.injEq] at hreg
  unfold Live
  rw [hreg.1, hreg.2.1, hreg.2.2, hgw, htimer]

theorem live_regReq (s : Mobile) (pa : ProcessAdvertisements) (draw : Draw) (adv : Packet)
    (h : Live s) :
    Live ⟨pa, s.node, (RegReq.push s.mn draw adv).1⟩ ↔
      ¬ (s.mn.connected = true ∧ RegReq.returnsHome s.mn adv) := by
  obtain ⟨hgw, hreg⟩ := RegReq.registration_push s.mn draw adv
  by_cases hret : RegReq.returnsHome s.mn adv
  · -- the lifetime is zero now, and `connected` is what it was
    have hhome := RegReq.push_of_returnsHome s.mn draw adv hret
    unfold Live
    simp [hhome, hret]
  · rw [if_neg hret] at hreg
    have hlive := (live_congr s ⟨pa, s.node, _⟩ hreg hgw rfl).mpr h
    simp [hlive, hret]

theorem live_processed (s : Mobile) (r : ProcessAdvertisements.Result) (draw : Draw)
    (hmn : ∃ advertisements, r.mn = { s.mn with advertisements := advertisements }) (h : Live s) :
    Live (processed s.node r draw).1 ↔
      ¬ (s.mn.connected = true ∧ ∃ adv ∈ (outputs 1 r.acts).head?, RegReq.returnsHome s.mn adv) := by
  obtain ⟨advertisements, hmn⟩ := hmn
  -- `t` is the node between the two elements
  let t : Mobile := ⟨r.pa, s.node, r.mn⟩
  have hreg : t.mn.registration = s.mn.registration := by
    simp only [t, hmn, MNInfo.registration]
  have hgw : t.mn.gateway = s.mn.gateway := by
    simp only [t, hmn]
  have ht : Live t := (live_congr s t hreg hgw rfl).mpr h
  have hret : ∀ adv, RegReq.returnsHome t.mn adv ↔ RegReq.returnsHome s.mn adv := by
    intro adv
    change RegReq.returnsHome r.mn adv ↔ _
    rw [hmn]
    rfl
  have hcon : t.mn.connected = s.mn.connected := by
    simp only [t, hmn]
  unfold processed
  cases (outputs 1 r.acts).head? with
  | none => simp [t, ht]
  | some adv =>
    have hlive := live_regReq t r.pa draw adv ht
    rw [hret, hcon] at hlive
    simpa using hlive

theorem live_reply (s : Mobile) (p : Packet) (h : Live s) :
    Live (step s (.reply p)).1 ↔ KeepsLive s (.reply p) := by
  cases hacc : RegNode.accepted s.mn p with
  | none =>
    obtain ⟨pending, hpush⟩ := RegNode.push_not_accepted s.node s.mn p hacc
    have hlive : Live (step s (.reply p)).1 := by
      simp only [step, hpush]
      exact h
    simp [KeepsLive, hacc, hlive]
  | some r =>
    obtain ⟨hdest, pending, hpush⟩ := RegNode.push_accepted s.node s.mn p r hacc
    by_cases hsrc : (ClickIp.ofBytes p.data).ipSrc ≠ s.mn.gateway
    · -- the countdown starts, and only its length is left to ask for
      rw [if_pos hsrc] at hpush
      have hzero : ∀ a b : UInt16, 0 < a-b ↔ a ≠ b := by
        intro a b
        rw [UInt16.pos_iff_ne_zero, ne_eq, ne_eq, UInt16.sub_eq_iff_eq_add, UInt16.zero_add]
      simp [KeepsLive, hacc, hsrc, Live, step, hpush, RegNode.register, hdest, hzero]
    · -- the countdown stops, which only a node that is not connected can afford
      rw [if_neg hsrc] at hpush
      simp [KeepsLive, hacc, hsrc, Live, step, hpush]

/-- A node that is still connected after a tick of its countdown was connected before, and
has one second less. -/
theorem connected_tickNode (s : Mobile) (draw : Draw) (h : Live s)
    (hc : (step s (.tickNode draw)).1.mn.connected = true) :
    s.mn.connected = true ∧ Live (step s (.tickNode draw)).1 ∧
      (step s (.tickNode draw)).1.mn.lifetime = s.mn.lifetime-1 := by
  unfold step at hc ⊢
  dsimp only at hc ⊢
  by_cases ht : s.node.timer = true
  · rw [if_pos ht] at hc ⊢
    by_cases hl : 0 < s.mn.lifetime
    · obtain ⟨hgw, hcon⟩ := RegNode.registration_runTimer s.node s.mn draw hl
      obtain ⟨hc', hpos, hfa, hlt⟩ := hcon hc
      refine ⟨hc', fun _ => ⟨hpos, ?_, RegNode.timer_runTimer s.node s.mn draw⟩, hlt⟩
      dsimp only
      rw [hfa, hgw]
      exact (h hc').2.1
    · -- a countdown that stands at zero does nothing, but a live node has none
      have hsame : (RegNode.runTimer s.node s.mn draw).2.1 = s.mn := by
        unfold RegNode.runTimer
        rw [if_neg hl]
      dsimp only at hc
      rw [hsame] at hc
      exact absurd (h hc).1 hl
  · rw [if_neg ht] at hc
    exact absurd (h hc).2.2 ht

theorem live_tickNode (s : Mobile) (draw : Draw) (h : Live s) :
    Live (step s (.tickNode draw)).1 := by
  intro hc
  exact (connected_tickNode s draw h hc).2.1 hc

/-- The countdown of a live node disconnects it. -/
theorem disconnected_of_ticks (s : Mobile) (h : Live s) (draws : List Draw)
    (hlen : s.mn.connected = true → s.mn.lifetime.toNat ≤ draws.length) :
    (Runs.final step s (draws.map Input.tickNode)).mn.connected = false := by
  -- by induction on the ticks: what is left of the lifetime fits into the ticks that are left
  induction draws generalizing s with
  | nil =>
    by_contra hc
    have hc' : s.mn.connected = true := by simpa [Runs.final] using hc
    have hpos := UInt16.lt_iff_toNat_lt.mp (h hc').1
    have hle := hlen hc'
    simp only [List.length_nil, UInt16.toNat_zero] at hle hpos
    omega
  | cons draw draws ih =>
    apply ih (step s (.tickNode draw)).1 (live_tickNode s draw h)
    intro hc
    obtain ⟨hc', -, hlt⟩ := connected_tickNode s draw h hc
    have hle := hlen hc'
    have hpos := UInt16.lt_iff_toNat_lt.mp (h hc').1
    rw [UInt16.toNat_zero] at hpos
    have hone : 1 ≤ s.mn.lifetime := UInt16.le_iff_toNat_le.mpr hpos
    rw [hlt, UInt16.toNat_sub_of_le _ _ hone, UInt16.toNat_one]
    rw [List.length_cons] at hle
    omega

/-- One step of the node keeps it live exactly if it is one of the steps listed in
`KeepsLive`. -/
theorem live_step_iff (s : Mobile) (i : Input) (h : Live s) :
    Live (step s i).1 ↔ KeepsLive s i := by
  cases i with
  | packet now draw p =>
    have hframe := ProcessAdvertisements.push_frame s.pa s.mn now p
    change Live (processed _ _ _).1 ↔ _
    -- `RegReq` hears only of what `ProcessAdvertisements` hands on
    rw [live_processed s _ draw hframe h, ProcessAdvertisements.outputs_push]
    unfold KeepsLive
    split_ifs with hall
    · simp [hall]
    · simp only [List.head?_nil, Option.not_mem_none, false_and, exists_false, and_false,
        not_false_eq_true, true_iff]
      exact fun hk => hall ⟨hk.2.1, hk.2.2.1, hk.2.2.2.1⟩
  | advertise draw adv => exact live_regReq s s.pa draw adv h
  | reply p => exact live_reply s p h
  | tickRequests => exact iff_of_true h trivial
  | tickNode draw => exact iff_of_true (live_tickNode s draw h) trivial
  | tickAgent now choice draw i =>
    refine iff_of_true ?_ trivial
    obtain ⟨hframe, hsilent⟩ := ProcessAdvertisements.runTimer_frame s.pa s.mn now choice i
    unfold step
    dsimp only
    split_ifs
    · rw [live_processed s _ draw hframe h]
      rintro ⟨hc, adv, hadv, -⟩
      rw [hsilent hc] at hadv
      simp at hadv
    · exact h

end Mobile

/-- In a run of the mobile node a connected node has a live foreign registration in every
state that is reached exactly if every step is one of those listed in
`Mobile.KeepsLive`. The countdown then disconnects the node wherever it is connected. -/
theorem connected_live_iff (homeAgent homeAddress gateway : IPAddress) (lifetime : UInt16)
    (registrationAlmostOver : UInt32) (is : List Mobile.Input) :
    let s₀ := Mobile.configure (MNInfo.configure homeAgent homeAddress gateway lifetime)
      registrationAlmostOver
    (Runs.Meets Mobile.step Mobile.KeepsLive s₀ is ↔
      ∀ js, js <+: is → Mobile.Live (Runs.final Mobile.step s₀ js)) ∧
    (Runs.Meets Mobile.step Mobile.KeepsLive s₀ is →
      ∀ draws : List Draw,
        draws.length = (Runs.final Mobile.step s₀ is).mn.lifetime.toNat →
        (Runs.final Mobile.step s₀ (is ++ draws.map Mobile.Input.tickNode)).mn.connected =
          false) := by
  intro s₀
  have h₀ : Mobile.Live s₀ := by
    intro hc
    cases hc
  have hiff := Runs.meets_iff_invariant Mobile.step Mobile.KeepsLive Mobile.Live
    Mobile.live_step_iff s₀ h₀ is
  refine ⟨hiff, ?_⟩
  intro hmeets draws hlen
  rw [Runs.final_append]
  apply Mobile.disconnected_of_ticks _ (hiff.mp hmeets is (List.prefix_refl is)) draws
  intro _
  exact hlen.ge

namespace Deployment

def mobile : Mobile := Mobile.configure info 3

/-- The first advertisement of the foreign agent and the reply to the request that it
brings about. -/
def registers : List Mobile.Input :=
  [.packet 0 ⟨4711, 1⟩ foreignAdvertisement,
    .reply (RegRep.replyPacket 0 (RegReq.makePacket info ⟨4711, 1⟩ foreignAgentPrivateAddress 100
      foreignAgentPublicAddress).2)]

end Deployment

theorem connected_live_deployed :
    (Runs.final Mobile.step Deployment.mobile Deployment.registers).mn.connected = true ∧
      Mobile.Live (Runs.final Mobile.step Deployment.mobile Deployment.registers) ∧
      (Runs.final Mobile.step Deployment.mobile (Deployment.registers ++
        (List.replicate 100 ⟨4712, 2⟩).map Mobile.Input.tickNode)).mn.connected = false := by
  have hmeets : Runs.Meets Mobile.step Mobile.KeepsLive Deployment.mobile Deployment.registers := by
    decide +kernel
  have hlen : (List.replicate 100 (⟨4712, 2⟩ : Draw)).length =
      (Runs.final Mobile.step Deployment.mobile Deployment.registers).mn.lifetime.toNat := by
    decide +kernel
  have hinit : Mobile.configure (MNInfo.configure Deployment.homeAgentPublicAddress
      Deployment.mobileNodeAddress Deployment.homeAgentPrivateAddress 0) 3 = Deployment.mobile := rfl
  have hlive := connected_live_iff Deployment.homeAgentPublicAddress
    Deployment.mobileNodeAddress Deployment.homeAgentPrivateAddress 0 3 Deployment.registers
  simp only [hinit] at hlive
  exact ⟨by decide +kernel, hlive.1.mp hmeets _ (List.prefix_refl _), hlive.2 hmeets _ hlen⟩

/-- A node that is connected hears its home agent, and stays connected to the gateway with
no lifetime left. -/
theorem connected_without_lifetime :
    (Runs.final Mobile.step Deployment.mobile (Deployment.registers ++
      [.packet 1 ⟨4712, 2⟩ Deployment.homeAdvertisement])).mn.registration =
        (true, Deployment.info.gateway, 0) ∧
    ¬ Mobile.Live (Runs.final Mobile.step Deployment.mobile (Deployment.registers ++
      [.packet 1 ⟨4712, 2⟩ Deployment.homeAdvertisement])) := by
  decide +kernel

end MobileIP
