import MobileIP.Restart
import MobileIP.Messages
import MobileIP.Solicitation

/-! The advertisements of an agent: the numbers that they carry, whatever makes the agent send
them, and what a mobile node reads in them. -/
namespace MobileIP

open LittleEndian VectorSearch

namespace Advertisement

/-- What makes an agent advertise. -/
inductive Event where
  | timer
  -- the frame of a solicitation
  | solicitation (packet : Packet)

def push (e : Advertisement) (packet : Packet) : Advertisement × List Action :=
  let iph := ClickIp.ofBytes (packet.data.drop sizeofClickEther)
  let r := e.sendPacket iph.ipSrc
  (r.1, [.emit 0 r.2, .kill])

def runTimer (e : Advertisement) : Advertisement × List Action :=
  let r := e.sendPacket 0xffffffff
  (r.1, [.emit 0 r.2])

def step (e : Advertisement) : Event → Advertisement × List Action
  | .timer => e.runTimer
  | .solicitation packet => e.push packet

/-- The packets that an agent has sent after some events. -/
def sent (e : Advertisement) (events : List Event) : List Packet :=
  outputs 0 (Runs.trace step e events)

/-- Where the advertisement for an event goes. -/
def destination : Event → IPAddress
  | .timer => 0xffffffff
  | .solicitation packet => (ClickIp.ofBytes (packet.data.drop sizeofClickEther)).ipSrc

theorem step_eq (e : Advertisement) (event : Event) :
    (step e event).1 = (e.sendPacket (destination event)).1 ∧
      outputs 0 (step e event).2 = [(e.sendPacket (destination event)).2] := by
  cases event with
  | timer => exact ⟨rfl, rfl⟩
  | solicitation packet => exact ⟨rfl, rfl⟩

/-- Both kinds of events go through `sendPacket`, once each. -/
theorem sent_eq_messages (e : Advertisement) (events : List Event) :
    e.sent events = e.messages (events.map destination) := by
  induction events generalizing e with
  | nil => rfl
  | cons event events ih =>
    obtain ⟨hstate, hout⟩ := step_eq e event
    have hrest := ih (e.sendPacket (destination event)).1
    rw [sent, Runs.trace, outputs_append, hout, hstate]
    exact congrArg (List.cons _) hrest

theorem length_messages (e : Advertisement) (destinations : List IPAddress) :
    (e.messages destinations).length = destinations.length := by
  induction destinations generalizing e with
  | nil => rfl
  | cons dst destinations ih => exact congrArg (·+1) (ih (e.sendPacket dst).1)

end Advertisement

/-- The advertisements of an agent are numbered in the order in which they are sent, once from
zero and from then on from 256; so only the first 256 have a number that tells of a restart. -/
theorem advertisement_numbers (srcIp careOfAddress : IPAddress) (ha fa busy : Bool)
    (advertisementLifetime registrationLifetime : UInt32) (events : List Advertisement.Event) :
    let packets := (Advertisement.configure srcIp careOfAddress ha fa busy advertisementLifetime
      registrationLifetime).sent events
    packets.length = events.length ∧
      ∀ k p, packets[k]? = some p →
        (ProcessAdvertisements.seqNr p = if k ≤ 65535 then k else 256+(k-65536)%65280) ∧
        (ProcessAdvertisements.seqNr p < 256 ↔ k < 256) := by
  intro packets
  let e := Advertisement.configure srcIp careOfAddress ha fa busy advertisementLifetime
    registrationLifetime
  have hpackets : packets = e.messages (events.map Advertisement.destination) :=
    e.sent_eq_messages events
  rw [hpackets]
  constructor
  · rw [Advertisement.length_messages, List.length_map]
  · intro k p hp
    obtain ⟨dst, rfl⟩ := e.messages_number rfl (events.map Advertisement.destination) k p hp
    have hnumber : ProcessAdvertisements.seqNr
        ({ e with sequenceNr := Advertisement.number k }.sendPacket dst).2 =
        if k ≤ 65535 then k else 256+(k-65536)%65280 := by
      rw [ProcessAdvertisements.seqNr_message, Advertisement.toNat_number]
    refine ⟨hnumber, ?_⟩
    rw [hnumber]
    split_ifs
    · rfl
    · omega

namespace Deployment

def solicitor : Solicitation := Solicitation.configure mobileNodeAddress 5

/-- Two advertisements by the timer, and one for a solicitation in between. -/
def solicited : List Advertisement.Event :=
  [.timer, .solicitation (solicitor.packet.frame (default : Ether).bytes), .timer]

end Deployment

theorem advertisement_numbers_third :
    ∃ p, (Deployment.foreignAdvertiser.sent Deployment.solicited)[2]? = some p ∧
      ProcessAdvertisements.seqNr p = 2 := by
  let packets := Deployment.foreignAdvertiser.sent Deployment.solicited
  obtain ⟨hlen, hnumbers⟩ := advertisement_numbers Deployment.foreignAgentPrivateAddress
    Deployment.foreignAgentPublicAddress false true false 27 100 Deployment.solicited
  have hthree : packets.length = 3 := hlen
  have hlt : 2 < packets.length := by omega
  have hp : packets[2]? = some packets[2] := List.getElem?_eq_getElem hlt
  exact ⟨packets[2], hp, (hnumbers 2 packets[2] hp).1⟩

namespace Advertisement

/-- What a mobile node takes from an advertisement of `e`: `ProcessAdvertisements` the agent, the
busy flag and the lifetime that it counts down, `RegReq` the rest, and the lifetime that it
requests. -/
structure Recovered (e : Advertisement) (p : Packet) : Prop where
  source : (RegReq.aip p).ipSrc = e.srcIp
  address : (ProcessAdvertisements.ah p).address = e.srcIp
  careOfAddress : (RegReq.ahx p).address = e.careOfAddress
  busy : ProcessAdvertisements.busy p ↔ e.busy = true
  home : RegReq.home p ↔ e.ha = true
  foreign : RegReq.foreign p ↔ e.fa = true
  stored : e.busy = false → ∀ pa mn now,
    (ProcessAdvertisements.push pa mn now p).mn.advertisements.lookup e.srcIp = some p
  countdown :
    (ntohs (ProcessAdvertisements.ah p).lifetime).toNat = e.advertisementLifetime.toNat
  -- a node that is not at home in the agent's network registers with a foreign agent
  request : e.fa = true → ∀ (mn : MNInfo) (draw : Draw), mn.gateway ≠ e.srcIp →
    ∃ q, (RegReq.push mn draw p).2 = [.emit 0 q, .kill] ∧
      (RegRep.request q).careOfAddress = e.careOfAddress ∧
      (ntohs (RegRep.request q).lifetime).toNat = e.registrationLifetime.toNat

theorem home_sendPacket (e : Advertisement) (dst : IPAddress) :
    RegReq.home (e.sendPacket dst).2 ↔ e.ha = true := by
  have hflags : ∀ busy ha fa : Bool,
      (((busy.toUInt8 <<< 6)+(ha.toUInt8 <<< 5)+(fa.toUInt8 <<< 4)) >>> 5) &&& 1 = 1 ↔
        ha = true := by
    decide
  have hext : RegReq.ahx (e.sendPacket dst).2 = e.extension := ahe_sendPacket e dst
  unfold RegReq.home
  rw [hext]
  exact hflags e.busy e.ha e.fa

theorem foreign_sendPacket (e : Advertisement) (dst : IPAddress) :
    RegReq.foreign (e.sendPacket dst).2 ↔ e.fa = true := by
  have hflags : ∀ busy ha fa : Bool,
      (((busy.toUInt8 <<< 6)+(ha.toUInt8 <<< 5)+(fa.toUInt8 <<< 4)) >>> 4) &&& 1 = 1 ↔
        fa = true := by
    decide
  have hext : RegReq.ahx (e.sendPacket dst).2 = e.extension := ahe_sendPacket e dst
  unfold RegReq.foreign
  rw [hext]
  exact hflags e.busy e.ha e.fa

/-- A lifetime goes out in 16 bits. -/
theorem toNat_toUInt16_eq_iff (x : UInt32) : x.toUInt16.toNat = x.toNat ↔ x.toNat < 65536 := by
  rw [UInt32.toNat_toUInt16]
  omega

theorem lookup_push_sendPacket (e : Advertisement) (dst : IPAddress) (hb : e.busy = false)
    (pa : ProcessAdvertisements) (mn : MNInfo) (now : ℕ) :
    (ProcessAdvertisements.push pa mn now (e.sendPacket dst).2).mn.advertisements.lookup e.srcIp =
      some (e.sendPacket dst).2 := by
  have hbusy : ¬ ProcessAdvertisements.busy (e.sendPacket dst).2 := by
    rw [busy_sendPacket, hb]
    exact Bool.false_ne_true
  have haddr : (ProcessAdvertisements.ah (e.sendPacket dst).2).address = e.srcIp := by
    rw [ah_sendPacket]
    rfl
  unfold ProcessAdvertisements.push
  rw [if_pos (advertises_sendPacket e dst)]
  dsimp only
  rw [if_neg hbusy, haddr]
  -- the packet is stored whether or not it starts an attempt
  by_cases hatt : ProcessAdvertisements.attempts mn (e.sendPacket dst).2
  · rw [if_pos hatt]
    exact List.lookup_cons_self
  · rw [if_neg hatt]
    exact List.lookup_cons_self

/-- The request that a foreign agent's advertisement brings about. -/
theorem push_sendPacket (e : Advertisement) (dst : IPAddress) (hf : e.fa = true) (mn : MNInfo)
    (draw : Draw) (hgw : mn.gateway ≠ e.srcIp) :
    ∃ q, (RegReq.push mn draw (e.sendPacket dst).2).2 = [.emit 0 q, .kill] ∧
      RegRep.request q =
        RegReq.requestHeader mn draw e.registrationLifetime.toUInt16 e.careOfAddress := by
  have hip : RegReq.aip (e.sendPacket dst).2 = e.ip dst := iph_sendPacket e dst
  have hext : RegReq.ahx (e.sendPacket dst).2 = e.extension := ahe_sendPacket e dst
  have hsrc : (RegReq.aip (e.sendPacket dst).2).ipSrc ≠ mn.gateway := by
    rw [hip]
    exact hgw.symm
  have hlt : ntohs e.extension.lifetime = e.registrationLifetime.toUInt16 := ntohs_htons _
  have hpush := RegReq.push_foreign mn draw _ hsrc ((foreign_sendPacket e dst).mpr hf)
  rw [hext, hlt] at hpush
  refine ⟨_, congrArg Prod.snd hpush, ?_⟩
  rw [RegReq.makePacket_eq, RegRep.request, payload_sealedPacket, RegreqH.ofBytes_only]
  rfl

end Advertisement

/-- A mobile node recovers from an advertisement what the agent was configured with exactly if
the two lifetimes fit into their fields, the one for registrations only if the agent is a
foreign agent. -/
theorem advertisement_recovered_iff (e : Advertisement) (dst : IPAddress) :
    e.Recovered (e.sendPacket dst).2 ↔
      e.advertisementLifetime.toNat < 65536 ∧
        (e.fa = true → e.registrationLifetime.toNat < 65536) := by
  have hcount : ntohs (ProcessAdvertisements.ah (e.sendPacket dst).2).lifetime =
      e.advertisementLifetime.toUInt16 := by
    rw [Advertisement.ah_sendPacket]
    exact ntohs_htons _
  have hrequested (mn : MNInfo) (draw : Draw) :
      ntohs (RegReq.requestHeader mn draw e.registrationLifetime.toUInt16
        e.careOfAddress).lifetime = e.registrationLifetime.toUInt16 := ntohs_htons _
  rw [← Advertisement.toNat_toUInt16_eq_iff, ← Advertisement.toNat_toUInt16_eq_iff]
  constructor
  · intro h
    refine ⟨hcount ▸ h.countdown, ?_⟩
    intro hf
    -- some node has another gateway, and its request shows the lifetime
    let mn := MNInfo.configure 0 0 (e.srcIp+1) 0
    have hgw : mn.gateway ≠ e.srcIp := by
      intro heq
      have hone : e.srcIp+1 = e.srcIp := heq
      simp at hone
    obtain ⟨q, hq, -, hlt⟩ := h.request hf mn ⟨0, 0⟩ hgw
    obtain ⟨q', hq', hreq⟩ := e.push_sendPacket dst hf mn ⟨0, 0⟩ hgw
    have hsame : q' = q := by simpa using hq'.symm.trans hq
    rw [← hsame, hreq, hrequested] at hlt
    exact hlt
  · rintro ⟨ha, hr⟩
    have hip : RegReq.aip (e.sendPacket dst).2 = e.ip dst := Advertisement.iph_sendPacket e dst
    have hext : RegReq.ahx (e.sendPacket dst).2 = e.extension := Advertisement.ahe_sendPacket e dst
    constructor
    · rw [hip]
      rfl
    · rw [Advertisement.ah_sendPacket]
      rfl
    · rw [hext]
      rfl
    · exact Advertisement.busy_sendPacket e dst
    · exact Advertisement.home_sendPacket e dst
    · exact Advertisement.foreign_sendPacket e dst
    · exact Advertisement.lookup_push_sendPacket e dst
    · rw [hcount]
      exact ha
    · intro hf mn draw hgw
      obtain ⟨q, hq, hreq⟩ := e.push_sendPacket dst hf mn draw hgw
      refine ⟨q, hq, ?_, ?_⟩
      · rw [hreq]
        rfl
      · rw [hreq, hrequested]
        exact hr hf

/-- An agent that advertises a lifetime of 65536 seconds, and one of 65636 seconds for
registrations: the node counts down from zero and asks for 100 seconds. -/
theorem advertisement_lifetimes_lost :
    let e := Advertisement.configure Deployment.foreignAgentPrivateAddress
      Deployment.foreignAgentPublicAddress false true false 65536 65636
    let p := (e.sendPacket 0xffffffff).2
    (ntohs (ProcessAdvertisements.ah p).lifetime).toNat = 0 ∧
      (outputs 0 (RegReq.push Deployment.info ⟨4711, 1⟩ p).2).map
        (fun q => (ntohs (RegRep.request q).lifetime).toNat) = [100] ∧
      ¬ e.Recovered p := by
  intro e p
  have hzero : (ntohs (ProcessAdvertisements.ah p).lifetime).toNat = 0 := by decide +kernel
  refine ⟨hzero, by decide +kernel, ?_⟩
  intro h
  have hcount := h.countdown
  rw [hzero] at hcount
  exact absurd hcount (by decide)

end MobileIP
