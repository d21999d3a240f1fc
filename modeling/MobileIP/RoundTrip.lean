import MobileIP.Messages
import MobileIP.Advertisement

/-! A registration and a deregistration carried through all their handlers without
a timer tick in between. -/
namespace MobileIP

open LittleEndian VectorSearch

/-- The three nodes: the mobile node with its shared state, the foreign agent and
the home agent. -/
structure Parties where
  node : RegNode
  mn : MNInfo
  fa : FA
  ha : HA
  deriving DecidableEq, Repr

/-- A registration: `RegReq` takes an advertisement, `Relay` the request, `RegRep` the
relayed request, `Relay` the reply and `RegNode` the relayed reply. It stops where a
handler sends nothing on. -/
def registrationExchange (relay : Relay) (w : Parties) (draw : Draw) (rand rand' : ℕ)
    (ether ether' : Ether) (adv : Packet) : Option Parties := do
  let r1 := RegReq.push w.mn draw adv
  let req ← (outputs 0 r1.2).head?
  let r2 := Relay.push relay w.fa rand (req.frame ether.bytes)
  let relayed ← (outputs 1 r2.2).head?
  let r3 := RegRep.push w.ha relayed.strip
  let rep ← (outputs 1 r3.2).head?
  let r4 := Relay.push relay r2.1 rand' (rep.frame ether'.bytes)
  let back ← (outputs 0 r4.2).head?
  let r5 := RegNode.push w.node r1.1 back
  some ⟨r5.1, r5.2.1, r4.1, r3.1⟩

/-- A deregistration: the request and the reply pass between the node and its home
agent directly. -/
def deregistrationExchange (w : Parties) (draw : Draw) (adv : Packet) : Option Parties := do
  let r1 := RegReq.push w.mn draw adv
  let req ← (outputs 0 r1.2).head?
  let r2 := RegRep.push w.ha req
  let rep ← (outputs 0 r2.2).head?
  let r3 := RegNode.push w.node r1.1 rep
  some ⟨r3.1, r3.2.1, w.fa, r2.1⟩

/-- The exchange comes to its end if the handlers send the packet on four times. -/
theorem registrationExchange_of_steps (relay : Relay) (w : Parties) (draw : Draw)
    (rand rand' : ℕ) (ether ether' : Ether) (adv : Packet) (mn₁ : MNInfo) (fa₁ fa₂ : FA) (ha₁ : HA)
    (req relayed rep back : Packet)
    (h1 : RegReq.push w.mn draw adv = (mn₁, [.emit 0 req, .kill]))
    (h2 : Relay.push relay w.fa rand (req.frame ether.bytes) =
      (fa₁, [.forward 1 (relayed.frame ether.bytes)]))
    (h3 : RegRep.push w.ha relayed = (ha₁, [.emit 1 rep, .kill]))
    (h4 : Relay.push relay fa₁ rand' (rep.frame ether'.bytes) = (fa₂, [.forward 0 back])) :
    registrationExchange relay w draw rand rand' ether ether' adv =
      some ⟨(RegNode.push w.node mn₁ back).1, (RegNode.push w.node mn₁ back).2.1, fa₂, ha₁⟩ := by
  simp only [registrationExchange, h1, h2, h3, h4, outputs, Action.sent, strip_frame,
    List.filterMap_cons, List.filterMap_nil, List.head?_cons, ↓reduceIte, Option.bind_eq_bind,
    Option.bind_some]

/-- The home agent grants the lifetime that was requested. -/
theorem RegRep.grants_replyHeader (req : RegreqH) (r : UInt16) (hr : req.lifetime = htons r)
    (hpos : 1 ≤ r.toNat) :
    ntohs (RegRep.replyHeader 0 req).lifetime = r ∧ Relay.grants (RegRep.replyHeader 0 req) := by
  have hlife : ntohs (RegRep.replyHeader 0 req).lifetime = r := by
    change ntohs req.lifetime = r
    rw [hr]
    exact ntohs_htons r
  refine ⟨hlife, Or.inl rfl, ?_⟩
  intro hz
  rw [← hlife, hz] at hpos
  exact absurd hpos (by decide)

def Deployment.parties : Parties := ⟨rn, info, foreignAgent, homeAgent⟩

/-- Registration through a foreign agent. From any tables in which the request can be
admitted and the reply can be told apart, all three nodes agree at the end. -/
theorem registration_round_trip (relay : Relay) (w : Parties) (draw : Draw) (rand rand' : ℕ)
    (ether ether' : Ether) (adv : Packet)
    (hha : w.mn.homeAgent ≠ 0xffffffff)
    (hsrc : (RegReq.aip adv).ipSrc ≠ w.mn.gateway) (hforeign : RegReq.foreign adv)
    (hco : (RegReq.ahx adv).address ≠ w.mn.homeAddress)
    (hlife : 1 ≤ (ntohs (RegReq.ahx adv).lifetime).toNat)
    (hprivate : relay.privateIP = (RegReq.aip adv).ipSrc)
    (hlimit : relay.registrationLimit < 0 ∨
      (w.fa.registrations.length : ℤ) < relay.registrationLimit)
    (hkeys : (w.fa.registrations.map Prod.fst).Nodup) (hfa : w.fa.requests = [])
    (hmn : ∀ r ∈ w.mn.pending, ¬ (r.dest = (RegReq.aip adv).ipSrc ∧ r.port = RegReq.port draw)) :
    ∃ out, registrationExchange relay w draw rand rand' ether ether' adv = some out ∧
      out.mn.connected = true ∧ out.mn.foreignAgent = (RegReq.aip adv).ipSrc ∧
      out.mn.lifetime = ntohs (RegReq.ahx adv).lifetime ∧ out.mn.pending = w.mn.pending ∧
      out.fa.requests = [] ∧
      (out.fa.registrations.map Prod.fst).count w.mn.homeAddress = 1 ∧
      ∃ mi, out.ha.mobilityBindings = w.ha.mobilityBindings ++ [mi] ∧
        mi.address = w.mn.homeAddress ∧ mi.careOfAddress = (RegReq.ahx adv).address ∧
        mi.identification = draw.id := by
  -- the four packets, from the mobile node to the home agent and back
  let A := (RegReq.aip adv).ipSrc
  let rr := RegReq.requestHeader w.mn draw (ntohs (RegReq.ahx adv).lifetime) (RegReq.ahx adv).address
  let pr := RegReq.pendingRequest draw A (ntohs (RegReq.ahx adv).lifetime) (RegReq.ahx adv).address
  let ip1 := RegReq.requestIp w.mn A
  let udp1 := RegReq.rawUdp draw
  let entry := Relay.pendingEntry ((sealedPacket ip1 udp1 rr.toBytes A).frame ether.bytes)
  let ip2 := relayedIp w.fa ip1 rr
  let udp2 := relayedUdp rand udp1
  let ip3 := RegRep.replyIp ip2
  let udp3 := RegRep.rawUdp udp2
  let rep := RegRep.replyHeader 0 rr
  let ip4 : ClickIp := { ip3 with ipSrc := A, ipDst := w.mn.homeAddress }
  let udp4 : ClickUdp := { udp3 with uhDport := htons (RegReq.port draw) }
  -- the states of the foreign agent and the mobile node in between
  let fa1 : FA := { w.fa with requests := [entry] }
  let fa2 : FA := { w.fa with
    registrations := Relay.updateRegistrations w.fa.registrations entry rep
    requests := [] }
  let mn1 : MNInfo := { w.mn with pending := w.mn.pending ++ [pr] }
  let mn2 : MNInfo := { RegNode.register mn1 pr rep with pending := w.mn.pending }
  have h1 : RegReq.push w.mn draw adv =
      (mn1, [.emit 0 (sealedPacket ip1 udp1 rr.toBytes A), .kill]) :=
    RegReq.push_foreign w.mn draw adv hsrc hforeign
  have h2 : Relay.push relay w.fa rand ((sealedPacket ip1 udp1 rr.toBytes A).frame ether.bytes) =
      (fa1, [.forward 1 ((sealedPacket ip2 udp2 rr.toBytes rr.homeAgent).frame ether.bytes)]) := by
    rw [Relay.push_admitted ether relay w.fa rand ip1 udp1 rr A rfl rfl rfl hlimit, hfa]
    rfl
  have h3 : RegRep.push w.ha (sealedPacket ip2 udp2 rr.toBytes rr.homeAgent) =
      ({ w.ha with mobilityBindings := w.ha.mobilityBindings ++ [RegRep.newBinding rr] },
        [.emit 1 (sealedPacket ip3 udp3 rep.toBytes ip2.ipSrc), .kill]) :=
    RegRep.push_registration w.ha ip2 udp2 rr rr.homeAgent rfl rfl hha hco.symm
  have h4 : Relay.push relay fa1 rand' ((sealedPacket ip3 udp3 rep.toBytes ip2.ipSrc).frame
        ether'.bytes) =
      (fa2, [.forward 0 (sealedPacket ip4 udp4 rep.toBytes w.mn.homeAddress)]) := by
    -- the only pending entry is the node's, so no entry behind it supplies the port
    have hip : entry.ipSrc = rep.homeAddress := by
      simp only [entry, Relay.pendingEntry, Relay.ip_sealed]
      rfl
    have hport : entry.udpSrc = RegReq.port draw := by
      simp only [entry, Relay.pendingEntry, Relay.udp_sealed]
      exact ntohs_htons _
    rw [Relay.push_reply_split ether' relay fa1 rand' ip3 udp3 rep _ rfl rfl [] [] entry rfl hip
      (by simp), List.headD_nil, hport, hprivate]
    rfl
  have h5 : RegNode.push w.node mn1 (sealedPacket ip4 udp4 rep.toBytes w.mn.homeAddress) =
      ({ w.node with timer := true }, mn2, [.kill]) := by
    have hdport : ntohs udp4.uhDport = RegReq.port draw := ntohs_htons _
    have hpre : ∀ x ∈ w.mn.pending, ¬ (x.dest = ip4.ipSrc ∧ x.port = ntohs udp4.uhDport) := by
      rw [hdport]
      exact hmn
    have hcode : rep.code = 0 ∨ rep.code = 1 := Or.inl rfl
    have hgw : ip4.ipSrc ≠ mn1.gateway := hsrc
    rw [RegNode.push_matching w.node mn1 ip4 udp4 rep _ rfl w.mn.pending [] pr rfl
      ⟨rfl, hdport.symm⟩ hpre rfl, List.append_nil, if_pos hcode, if_pos hgw]
  have hrun : registrationExchange relay w draw rand rand' ether ether' adv =
      some ⟨{ w.node with timer := true }, mn2, fa2,
        { w.ha with mobilityBindings := w.ha.mobilityBindings ++ [RegRep.newBinding rr] }⟩ := by
    rw [registrationExchange_of_steps relay w draw rand rand' ether ether' adv mn1 fa1 fa2 _ _ _ _ _
      h1 h2 h3 h4, h5]
  have hgrants : ntohs rep.lifetime = ntohs (RegReq.ahx adv).lifetime ∧ Relay.grants rep :=
    RegRep.grants_replyHeader rr _ rfl hlife
  obtain ⟨hR, hgrant⟩ := hgrants
  refine ⟨_, hrun, rfl, rfl, ?_, rfl, rfl, ?_, RegRep.newBinding rr, rfl, rfl, rfl, rfl⟩
  · simp only [mn2, RegNode.register, hR]
    simp [pr, RegReq.pendingRequest]
  · apply List.count_eq_one_of_mem (Relay.nodup_updateRegistrations _ entry rep hkeys)
    exact List.mem_map_of_mem (Relay.mem_updateRegistrations_grants w.fa.registrations entry rep hgrant)

theorem registration_round_trip_deployed :
    ∃ out, registrationExchange Deployment.relay Deployment.parties ⟨4711, 0x123456789abcdef0⟩ 7 8
        default default Deployment.foreignAdvertisement = some out ∧
      out.mn.connected = true ∧ out.mn.foreignAgent = Deployment.foreignAgentPrivateAddress ∧
      out.mn.lifetime = 100 ∧ out.mn.pending = [] ∧ out.fa.requests = [] ∧
      (out.fa.registrations.map Prod.fst).count Deployment.mobileNodeAddress = 1 ∧
      ∃ mi, out.ha.mobilityBindings = [] ++ [mi] ∧ mi.address = Deployment.mobileNodeAddress ∧
        mi.careOfAddress = Deployment.foreignAgentPublicAddress ∧
        mi.identification = 0x123456789abcdef0 :=
  registration_round_trip Deployment.relay Deployment.parties ⟨4711, 0x123456789abcdef0⟩ 7 8
    default default Deployment.foreignAdvertisement (by decide) (by decide) (by decide) (by decide)
    (by decide) (by decide) (by decide) (by decide) rfl (by decide)

/-- Deregistration at home. The reply does not pass through the foreign agent, and
the node does not answer a second home advertisement. -/
theorem deregistration_round_trip (w : Parties) (draw draw' : Draw) (adv adv' : Packet)
    (hha : w.mn.homeAgent ≠ 0xffffffff) (hfa : w.mn.foreignAgent ≠ w.mn.gateway)
    (hsrc : (RegReq.aip adv).ipSrc = w.mn.gateway) (hhome : RegReq.home adv)
    (hsrc' : (RegReq.aip adv').ipSrc = w.mn.gateway)
    (hmn : ∀ r ∈ w.mn.pending, ¬ (r.dest = w.mn.gateway ∧ r.port = RegReq.port draw)) :
    ∃ out, deregistrationExchange w draw adv = some out ∧
      out.ha.mobilityBindings =
        w.ha.mobilityBindings.filter (fun mi => mi.address ≠ w.mn.homeAddress) ∧
      out.mn.pending = w.mn.pending ∧ out.mn.foreignAgent = out.mn.gateway ∧
      out.mn.connected = w.mn.connected ∧
      RegReq.push out.mn draw' adv' = (out.mn, [.kill]) := by
  let mn0 : MNInfo := { w.mn with foreignAgent := w.mn.gateway, lifetime := 0 }
  let rr := RegReq.requestHeader mn0 draw 0 w.mn.homeAddress
  let pr := RegReq.pendingRequest draw w.mn.gateway 0 w.mn.homeAddress
  let ip1 := RegReq.requestIp mn0 w.mn.gateway
  let udp1 := RegReq.rawUdp draw
  let ip2 := RegRep.replyIp ip1
  let udp2 := RegRep.rawUdp udp1
  let rep := RegRep.replyHeader 0 rr
  let mn1 : MNInfo := { mn0 with pending := w.mn.pending ++ [pr] }
  let ha1 : HA := { w.ha with
    mobilityBindings := RegRep.eraseBindings w.mn.homeAddress w.ha.mobilityBindings }
  have h1 : RegReq.push w.mn draw adv =
      (mn1, [.emit 0 (sealedPacket ip1 udp1 rr.toBytes w.mn.gateway), .kill]) :=
    RegReq.push_home w.mn draw adv hsrc hhome hfa
  have h2 : RegRep.push w.ha (sealedPacket ip1 udp1 rr.toBytes w.mn.gateway) =
      (ha1, [.emit 0 (sealedPacket ip2 udp2 rep.toBytes ip1.ipSrc), .kill]) :=
    RegRep.push_deregistration w.ha ip1 udp1 rr w.mn.gateway rfl rfl hha rfl
  have h3 : RegNode.push w.node mn1 (sealedPacket ip2 udp2 rep.toBytes ip1.ipSrc) =
      ({ w.node with timer := false }, { mn0 with pending := w.mn.pending }, [.kill]) := by
    have hdport : ntohs udp2.uhDport = RegReq.port draw := ntohs_htons _
    have hpre : ∀ x ∈ w.mn.pending, ¬ (x.dest = ip2.ipSrc ∧ x.port = ntohs udp2.uhDport) := by
      rw [hdport]
      exact hmn
    have hcode : rep.code = 0 ∨ rep.code = 1 := Or.inl rfl
    have hgw : ¬ ip2.ipSrc ≠ mn1.gateway := not_not_intro rfl
    rw [RegNode.push_matching w.node mn1 ip2 udp2 rep _ rfl w.mn.pending [] pr rfl
      ⟨rfl, hdport.symm⟩ hpre rfl, List.append_nil, if_pos hcode, if_neg hgw]
  have hrun : deregistrationExchange w draw adv =
      some ⟨{ w.node with timer := false }, { mn0 with pending := w.mn.pending }, w.fa, ha1⟩ := by
    simp only [deregistrationExchange, h1, h2, h3, outputs, Action.sent, List.filterMap_cons,
      List.filterMap_nil, List.head?_cons, ↓reduceIte, Option.bind_eq_bind, Option.bind_some]
  exact ⟨_, hrun, RegRep.eraseBindings_eq_filter _ _, rfl, rfl, rfl,
    RegReq.push_home_silent _ draw' adv' hsrc' rfl⟩

def Deployment.mixedBindings : List MobileInfo :=
  [⟨mobileNodeAddress, foreignAgentPublicAddress, 1, 100⟩,
    ⟨mobileNodeAddress, ipv4 192 168 0 4, 2, 100⟩,
    ⟨ipv4 192 168 2 2, foreignAgentPublicAddress, 3, 100⟩,
    ⟨mobileNodeAddress, foreignAgentPublicAddress, 4, 100⟩]

theorem deregistration_round_trip_deployed :
    ∃ out, deregistrationExchange
        { Deployment.parties with ha := { Deployment.homeAgent with
          mobilityBindings := Deployment.mixedBindings } } ⟨4711, 0x123456789abcdef0⟩
        Deployment.homeAdvertisement = some out ∧
      out.ha.mobilityBindings =
        Deployment.mixedBindings.filter (fun mi => mi.address ≠ Deployment.mobileNodeAddress) ∧
      out.mn.pending = [] ∧ out.mn.foreignAgent = out.mn.gateway ∧ out.mn.connected = false ∧
      RegReq.push out.mn ⟨0, 1⟩ Deployment.homeAdvertisement = (out.mn, [.kill]) :=
  deregistration_round_trip _ ⟨4711, 0x123456789abcdef0⟩ ⟨0, 1⟩
    Deployment.homeAdvertisement Deployment.homeAdvertisement (by decide) (by decide) (by decide)
    (by decide) (by decide) (by decide)

end MobileIP
