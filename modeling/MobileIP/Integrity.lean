import MobileIP.Messages
import MobileIP.RoundTrip
import MobileIP.Solicitation

/-! The checksums end to end: what every element emits verifies, and what the receivers
do with a registration message that does not. -/
namespace MobileIP

open LittleEndian OnesComplement VectorSearch

/-- A receiver ignores a message: its state stays as it was and nothing is sent. -/
def Ignores {σ : Type} (before : σ) (r : σ × List Action) : Prop :=
  r.1 = before ∧ ∀ a ∈ r.2, a = .kill

instance {σ : Type} [DecidableEq σ] (before : σ) (r : σ × List Action) :
    Decidable (Ignores before r) :=
  inferInstanceAs (Decidable (_ ∧ _))

theorem Relay.relayReq_corrupted (ether : Ether) (relay : Relay) (fa : FA) (rand : ℕ) (m : Packet)
    (h : badUdpChecksum m.data = true) :
    Relay.relayReq relay fa rand (m.frame ether.bytes) = (fa, [.kill]) := by
  unfold Relay.relayReq
  rw [Relay.iph_frame, if_pos h]

theorem Relay.relayRep_corrupted (ether : Ether) (relay : Relay) (fa : FA) (m : Packet)
    (h : badUdpChecksum m.data = true) :
    Relay.relayRep relay fa (m.frame ether.bytes) = (fa, [.kill]) := by
  unfold Relay.relayRep
  rw [Relay.iph_frame, if_pos h]

theorem RegRep.push_actions (ha : HA) (q : Packet) :
    (RegRep.push ha q).2 =
      if (RegRep.request q).type = 1 then
        [.emit (if (RegRep.request q).homeAddress = (RegRep.request q).careOfAddress then 0 else 1)
          (RegRep.replyPacket (RegRep.checkAcceptable ha q) q), .kill]
      else [.kill] := by
  unfold RegRep.push
  dsimp only
  -- the two outputs differ only in their number
  by_cases ht : (RegRep.request q).type = 1
  · rw [if_pos ht, if_pos ht]
    by_cases hco : (RegRep.request q).homeAddress = (RegRep.request q).careOfAddress
    · rw [if_pos hco, if_pos hco]
    · rw [if_neg hco, if_neg hco]
  · rw [if_neg ht, if_neg ht]

/-- The home agent answers every request, whatever its checksum. -/
theorem RegRep.ignores_iff (ha : HA) (m : Packet) :
    Ignores ha (RegRep.push ha m) ↔ (RegRep.request m).type ≠ 1 := by
  constructor
  · rintro ⟨-, hquiet⟩ ht
    rw [RegRep.push_actions, if_pos ht] at hquiet
    cases hquiet _ List.mem_cons_self
  · intro ht
    unfold RegRep.push
    dsimp only
    rw [if_neg ht]
    exact ⟨rfl, by simp⟩

/-- A corrupted reply costs the mobile node the pending request that it seems to answer. -/
theorem RegNode.ignores_corrupted_iff (node : RegNode) (mn : MNInfo) (m : Packet)
    (h : badUdpChecksum m.data = true) :
    Ignores mn (RegNode.push node mn m).2 ↔
      ∀ r ∈ mn.pending, ¬ (r.dest = (ClickIp.ofBytes m.data).ipSrc ∧
        r.port = ntohs (ClickUdp.ofBytes (m.data.drop sizeofClickIp)).uhDport) := by
  let ip := ClickIp.ofBytes m.data
  let udp := ClickUdp.ofBytes (m.data.drop sizeofClickIp)
  have hanswers : firstMatch (RegNode.answers ip udp) mn.pending = none ↔
      ∀ r ∈ mn.pending, ¬ (r.dest = ip.ipSrc ∧ r.port = ntohs udp.uhDport) := by
    rw [firstMatch_eq_none_iff]
    simp only [← RegNode.answers_iff, Bool.not_eq_true]
  -- the search comes first in the source, the checksum second
  rw [← hanswers]
  unfold RegNode.push
  dsimp only
  cases hm : firstMatch (RegNode.answers ip udp) mn.pending with
  | none => simp [Ignores]
  | some found =>
    obtain ⟨i, r⟩ := found
    dsimp only
    rw [if_pos h]
    -- the entry that was found is gone, so the list is shorter than it was
    have hi : mn.pending[i]? = some r := (firstMatch_getElem? _ _ _ _ hm).1
    have hlt : i < mn.pending.length := (List.getElem?_eq_some_iff.mp hi).1
    constructor
    · rintro ⟨heq, -⟩
      have hlen := congrArg (fun s => s.pending.length) heq
      dsimp only at hlen
      rw [List.length_eraseIdx_of_lt hlt] at hlen
      omega
    · intro hnone
      cases hnone

/-- Which receivers ignore a corrupted registration message. `Relay` tests the checksum
before anything else, `RegRep` never tests it, and `RegNode` tests it only after it has
found the request that the message answers. -/
theorem corrupted_message_ignored_iff (relay : Relay) (w : Parties) (rand : ℕ) (ether : Ether)
    (m : Packet) (h : badUdpChecksum m.data = true) :
    Ignores w.fa (Relay.relayReq relay w.fa rand (m.frame ether.bytes)) ∧
      Ignores w.fa (Relay.relayRep relay w.fa (m.frame ether.bytes)) ∧
      (Ignores w.ha (RegRep.push w.ha m) ↔ (RegRep.request m).type ≠ 1) ∧
      (Ignores w.mn (RegNode.push w.node w.mn m).2 ↔
        ∀ r ∈ w.mn.pending, ¬ (r.dest = (ClickIp.ofBytes m.data).ipSrc ∧
          r.port = ntohs (ClickUdp.ofBytes (m.data.drop sizeofClickIp)).uhDport)) := by
  refine ⟨?_, ?_, RegRep.ignores_iff w.ha m, RegNode.ignores_corrupted_iff w.node w.mn m h⟩
  · rw [Relay.relayReq_corrupted ether relay w.fa rand m h]
    exact ⟨rfl, by simp⟩
  · rw [Relay.relayRep_corrupted ether relay w.fa m h]
    exact ⟨rfl, by simp⟩

/-- A request and the home agent's reply to it, each with its lifetime changed on the way. -/
def Deployment.corruptedRequest : Packet :=
  let p := (RegReq.makePacket info ⟨4711, 1⟩ homeAgentPublicAddress 100 foreignAgentPublicAddress).2
  { p with data := p.data.set 30 7 }

def Deployment.corruptedReply : Packet :=
  let p := RegRep.replyPacket 0 (RegReq.makePacket info ⟨4711, 1⟩ homeAgentPublicAddress 100
    foreignAgentPublicAddress).2
  { p with data := p.data.set 30 7 }

/-- The mobile node that waits for that reply. -/
def Deployment.awaitingReply : MNInfo :=
  (RegReq.makePacket info ⟨4711, 1⟩ homeAgentPublicAddress 100 foreignAgentPublicAddress).1

theorem corrupted_reply_ignored_deployed :
    Ignores Deployment.foreignAgent (Relay.relayRep Deployment.relay Deployment.foreignAgent
        (Deployment.corruptedReply.frame (default : Ether).bytes)) ∧
      Ignores Deployment.info
        (RegNode.push Deployment.rn Deployment.info Deployment.corruptedReply).2 := by
  have h := corrupted_message_ignored_iff Deployment.relay Deployment.parties 7 default
    Deployment.corruptedReply (by decide)
  exact ⟨h.2.1, h.2.2.2.mpr (by decide)⟩

/-- The home agent adds a binding for a corrupted request, and a corrupted reply removes
the pending request of the mobile node. -/
theorem corrupted_messages_change_tables :
    badUdpChecksum Deployment.corruptedRequest.data = true ∧
      ¬ Ignores Deployment.homeAgent (RegRep.push Deployment.homeAgent
        Deployment.corruptedRequest) ∧
      badUdpChecksum Deployment.corruptedReply.data = true ∧
      ¬ Ignores Deployment.awaitingReply (RegNode.push Deployment.rn Deployment.awaitingReply
        Deployment.corruptedReply).2 := by
  decide +kernel

/-- The checksum of an IPv4 header without options verifies. -/
def headerVerifies (d : Bytes) : Prop := clickInCksum (d.take sizeofClickIp) = 0

instance (d : Bytes) : Decidable (headerVerifies d) := inferInstanceAs (Decidable (_ = _))

/-- The destination that the pseudo-header of a datagram names is the same while its UDP
checksum, bytes 26 and 27, is still zero. -/
def KeepsPseudoDst (iph : Bytes) : Prop := pseudoDst iph = pseudoDst ((iph.set 26 0).set 27 0)

instance (iph : Bytes) : Decidable (KeepsPseudoDst iph) := inferInstanceAs (Decidable (_ = _))

theorem clear_udpData (ip : ClickIp) (udp : ClickUdp) (payload : Bytes) :
    ((udpData ip udp payload).set 26 0).set 27 0 = udpData ip { udp with uhSum := 0 } payload := by
  simp [udpData, ClickIp.toBytes, ClickUdp.toBytes, le16, le32]

/-- A datagram whose UDP checksum was filled in last. -/
def Sealed (d : Bytes) : Prop :=
  ∃ ip udp payload, payload.length ≤ 65536 ∧ d = sealedData ip udp payload

theorem Sealed.accepted {d : Bytes} (h : Sealed d) (hk : KeepsPseudoDst d) :
    badUdpChecksum d = false := by
  obtain ⟨ip, udp, payload, hp, rfl⟩ := h
  apply badUdpChecksum_withSum ip udp payload hp
  unfold KeepsPseudoDst sealedData at hk
  rw [clear_udpData] at hk
  exact hk

theorem ofBytes_set (iph : Bytes) (i : ℕ) (x : UInt8) (hi : sizeofClickIp ≤ i) :
    ClickIp.ofBytes (iph.set i x) = ClickIp.ofBytes iph := by
  -- no field of the IP header reads a byte behind the first 20
  have hbyte : ∀ j < 20, byteAt (iph.set i x) j = byteAt iph j := by
    intro j hj
    have hne : i ≠ j := by
      change 20 ≤ i at hi
      omega
    simp only [byteAt, List.getD_eq_getElem?_getD, List.getElem?_set_ne hne]
  simp [ClickIp.ofBytes, u16At, u32At, hbyte]

/-- A header of at most six words has no room for a source route. -/
theorem keepsPseudoDst_short (iph : Bytes) (h : (ClickIp.ofBytes iph).ipHl.toNat ≤ 6) :
    KeepsPseudoDst iph := by
  have hclear : ClickIp.ofBytes ((iph.set 26 0).set 27 0) = ClickIp.ofBytes iph := by
    rw [ofBytes_set _ 27 0 (by decide), ofBytes_set _ 26 0 (by decide)]
  unfold KeepsPseudoDst
  rw [pseudoDst_short iph h, pseudoDst_short _ (by rwa [hclear]), hclear]

/-- A UDP message that an element builds from nothing is intact. -/
theorem intact_sealedPacket (ip : ClickIp) (hl : ip.ipHl = 5) (udp : ClickUdp) (pl : Bytes)
    (a : IPAddress) (hp : pl.length ≤ 65536) :
    headerVerifies (sealedPacket ip.withSum udp pl a).data ∧
      badUdpChecksum (sealedPacket ip.withSum udp pl a).data = false := by
  have htake : (sealedPacket ip.withSum udp pl a).data.take sizeofClickIp = ip.withSum.toBytes :=
    List.take_left' (ClickIp.length_toBytes _)
  have hl' : ip.withSum.ipHl = 5 := hl
  refine ⟨?_, badUdpChecksum_sealedData _ hl' udp pl hp⟩
  unfold headerVerifies
  rw [htake]
  exact clickInCksum_withSum ip

theorem RegReq.intact_makePacket (mn : MNInfo) (draw : Draw) (dest : IPAddress) (lifetime : UInt16)
    (co : IPAddress) :
    let p := (RegReq.makePacket mn draw dest lifetime co).2
    headerVerifies p.data ∧ badUdpChecksum p.data = false := by
  rw [RegReq.makePacket_eq]
  exact intact_sealedPacket _ rfl _ _ _ (by simp)

theorem RegRep.replyPacket_eq (acceptCode : ℕ) (q : Packet) :
    RegRep.replyPacket acceptCode q =
      sealedPacket (RegRep.replyIp (ClickIp.ofBytes q.data))
        (RegRep.rawUdp (ClickUdp.ofBytes (q.data.drop sizeofClickIp)))
        (RegRep.replyHeader acceptCode (RegRep.request q)).toBytes
        (ClickIp.ofBytes q.data).ipSrc := rfl

theorem RegRep.mem_outputs_push (ha : HA) (q : Packet) (port : ℕ) (p : Packet)
    (h : p ∈ outputs port (RegRep.push ha q).2) :
    p = RegRep.replyPacket (RegRep.checkAcceptable ha q) q := by
  rw [RegRep.push_actions] at h
  by_cases ht : (RegRep.request q).type = 1
  · rw [if_pos ht, outputs_emit] at h
    split_ifs at h
    all_goals simp at h
    all_goals exact h
  · rw [if_neg ht] at h
    simp at h

theorem RegRep.intact_push (ha : HA) (q : Packet) (port : ℕ) (p : Packet)
    (h : p ∈ outputs port (RegRep.push ha q).2) :
    headerVerifies p.data ∧ badUdpChecksum p.data = false := by
  rw [RegRep.mem_outputs_push ha q port p h, RegRep.replyPacket_eq]
  exact intact_sealedPacket _ rfl _ _ _ (by simp)

theorem Relay.intact_createRep (code : UInt8) (ips ipd : IPAddress) (udpd : UInt16) (id : UInt64)
    (homeAgent : IPAddress) :
    let p := Relay.createRep code ips ipd udpd id homeAgent
    headerVerifies p.data ∧ badUdpChecksum p.data = false := by
  rw [Relay.createRep_eq]
  exact intact_sealedPacket _ rfl _ _ _ (by simp)

namespace Relay

theorem mem_outputs_one (relay : Relay) (fa : FA) (rand : ℕ) (p out : Packet)
    (h : out ∈ outputs 1 (push relay fa rand p).2) :
    callsRelayReq p ∧ out = relayedRequest fa rand p := by
  -- everything but an admitted request goes to output 0
  unfold push at h
  by_cases hip : (ip p).ipP = 1
  · rw [if_pos hip] at h
    unfold pushIcmp at h
    dsimp only at h
    split_ifs at h
    · simp [outputs, Action.sent] at h
    · simp at h
  · rw [if_neg hip] at h
    dsimp only at h
    split_ifs at h with hreq hrep
    · refine ⟨⟨hip, hreq⟩, ?_⟩
      unfold relayReq at h
      split_ifs at h
      · simp at h
      · split at h
        · simp at h
        · simpa using h
    · unfold relayRep at h
      split_ifs at h
      · simp at h
      · split at h
        · simp at h
        · simp at h
    · simp at h

theorem sealed_relayedRequest (fa : FA) (rand : ℕ) (p : Packet) (h : callsRelayReq p) :
    Sealed (iph (relayedRequest fa rand p)) := by
  have hsize : p.data.length-sizeofClickEther = 52 := h.2
  have hlen : 0 < p.data.length-sizeofClickEther := by omega
  refine ⟨_, _, payload p, ?_, List.drop_left' (length_take_ether p hlen)⟩
  simp only [payload, iph, List.length_drop]
  omega

theorem sealed_relayedReply (relay : Relay) (p : Packet) (udpDst : UInt16) (h : callsRelayRep p) :
    Sealed (relayedReply relay p udpDst).data := by
  have hsize : p.data.length-sizeofClickEther = 48 := h.2
  refine ⟨_, _, payload p, ?_, relayedReply_data relay p udpDst h⟩
  simp only [payload, iph, List.length_drop]
  omega

theorem sealed_createRep (code : UInt8) (ips ipd : IPAddress) (udpd : UInt16) (id : UInt64)
    (homeAgent : IPAddress) : Sealed (createRep code ips ipd udpd id homeAgent).data :=
  ⟨_, _, _, by simp, congrArg Packet.data (createRep_eq code ips ipd udpd id homeAgent)⟩

/-- Whatever the foreign agent sends to a mobile node had its checksum filled in last. -/
theorem Transition.sealed {relay : Relay} {fa fa' : FA} {i : Input} {sent : List Packet}
    (h : Transition relay fa i fa' sent) (out : Packet) (hout : out ∈ sent) : Sealed out.data := by
  cases h with
  | idle => simp at hout
  | refused rand p code h =>
    rw [List.mem_singleton.mp hout]
    exact sealed_createRep _ _ _ _ _ _
  | admitted => simp at hout
  | reply rand p pre post entry h =>
    rw [List.mem_singleton.mp hout]
    exact sealed_relayedReply relay p _ h
  | unreachable rand p code ha =>
    obtain ⟨e, -, rfl⟩ := List.mem_map.mp hout
    exact sealed_createRep _ _ _ _ _ _
  | tick =>
    obtain ⟨e, -, rfl⟩ := List.mem_map.mp hout
    exact sealed_createRep _ _ _ _ _ _

end Relay

namespace Advertisement

theorem headerVerifies_sendPacket (e : Advertisement) (dst : IPAddress) :
    headerVerifies (e.sendPacket dst).2.data := by
  -- the checksum also covers 28 bytes that are filled in later, but they are zero until then
  let h : ClickIp := { e.ip dst with ipSum := 0 }
  have htake : (e.sendPacket dst).2.data.take sizeofClickIp = (e.ip dst).toBytes :=
    List.take_left' (ClickIp.length_toBytes _)
  have hsum : (e.ip dst).ipSum = clickInCksum (h.toBytes ++ List.replicate 28 0) := rfl
  have hzero : wordSum (h.toBytes ++ List.replicate 28 0) = wordSum h.toBytes := by
    rw [wordSum_append _ _ (by simp)]
    rfl
  unfold headerVerifies
  rw [htake]
  apply clickInCksum_filled _ (h.toBytes ++ List.replicate 28 0) (by simp)
  rw [wordSum_ip, hsum, hzero]

theorem wordSum_icmp (h : AdvertisementH) (rest : Bytes) :
    wordSum (h.toBytes ++ rest) = h.checksum.toNat+
      wordSum ({ h with checksum := 0 }.toBytes ++ rest) := by
  simp only [AdvertisementH.toBytes, List.cons_append, List.append_assoc, wordSum_cons_cons,
    wordSum_append_le16, UInt16.toNat_zero]
  omega

theorem icmpVerifies_sendPacket (e : Advertisement) (dst : IPAddress) :
    ((e.sendPacket dst).2.data.drop sizeofClickIp).length = 28 ∧
      clickInCksum ((e.sendPacket dst).2.data.drop sizeofClickIp) = 0 := by
  let h : AdvertisementH := { e.icmp with checksum := 0 }
  have hdrop : (e.sendPacket dst).2.data.drop sizeofClickIp =
      e.icmp.toBytes ++ e.extension.toBytes := rfl
  have hsum : e.icmp.checksum = clickInCksum (h.toBytes ++ e.extension.toBytes) := rfl
  have hlen : (h.toBytes ++ e.extension.toBytes).length = 28 := rfl
  rw [hdrop]
  refine ⟨rfl, ?_⟩
  apply clickInCksum_filled _ (h.toBytes ++ e.extension.toBytes) (by omega)
  rw [wordSum_icmp, hsum]

end Advertisement

theorem Solicitation.mem_outputs_runTimer (e : Solicitation) (mn : MNInfo) (p : Packet)
    (h : p ∈ outputs 0 (Solicitation.runTimer e mn).2) : p = e.packet := by
  unfold Solicitation.runTimer at h
  split_ifs at h
  · simp at h
  · simp at h
  · simpa using h

theorem Solicitation.headerVerifies_packet (e : Solicitation) : headerVerifies e.packet.data := by
  have htake : e.packet.data.take sizeofClickIp = e.ip.toBytes :=
    List.take_left' (ClickIp.length_toBytes _)
  unfold headerVerifies
  rw [htake]
  exact clickInCksum_withSum _

/-- Every emitted message passes the tests of its receivers. A message that the relay
rewrites must not carry a source route that ends in its own UDP checksum, for which a
header of six words is too short. -/
theorem emitted_messages_verify :
    (∀ mn draw dest lifetime co,
      let p := (RegReq.makePacket mn draw dest lifetime co).2
      headerVerifies p.data ∧ badUdpChecksum p.data = false) ∧
    (∀ ha q port p, p ∈ outputs port (RegRep.push ha q).2 →
      headerVerifies p.data ∧ badUdpChecksum p.data = false) ∧
    (∀ code ips ipd udpd id homeAgent,
      let p := Relay.createRep code ips ipd udpd id homeAgent
      headerVerifies p.data ∧ badUdpChecksum p.data = false) ∧
    (∀ relay fa rand p out, out ∈ outputs 1 (Relay.push relay fa rand p).2 →
      KeepsPseudoDst (Relay.iph out) → badUdpChecksum (Relay.iph out) = false) ∧
    (∀ relay fa rand p out, out ∈ outputs 0 (Relay.push relay fa rand p).2 →
      KeepsPseudoDst out.data → badUdpChecksum out.data = false) ∧
    (∀ iph, (ClickIp.ofBytes iph).ipHl.toNat ≤ 6 → KeepsPseudoDst iph) ∧
    (∀ (e : Advertisement) dst,
      let p := (e.sendPacket dst).2
      headerVerifies p.data ∧ (p.data.drop sizeofClickIp).length = 28 ∧
        clickInCksum (p.data.drop sizeofClickIp) = 0) ∧
    (∀ (e : Solicitation) mn p (ether : Ether), p ∈ outputs 0 (e.runTimer mn).2 →
      headerVerifies p.data ∧
        (e.srcAddress ≠ 0 →
          CheckSolicitation.push (p.frame ether.bytes) = [.forward 0 (p.frame ether.bytes)])) := by
  -- what the elements build themselves, then what the relay rewrites, then the two ICMP messages
  refine ⟨RegReq.intact_makePacket, RegRep.intact_push, Relay.intact_createRep, ?_, ?_,
    keepsPseudoDst_short, ?_, ?_⟩
  · intro relay fa rand p out hout hk
    obtain ⟨hcall, rfl⟩ := Relay.mem_outputs_one relay fa rand p out hout
    exact (Relay.sealed_relayedRequest fa rand p hcall).accepted hk
  · intro relay fa rand p out hout hk
    have ht := Relay.step_transition relay fa (.packet rand p)
    exact (ht.sealed out hout).accepted hk
  · intro e dst
    exact ⟨e.headerVerifies_sendPacket dst, e.icmpVerifies_sendPacket dst⟩
  · intro e mn p ether hp
    rw [e.mem_outputs_runTimer mn p hp]
    exact ⟨e.headerVerifies_packet, CheckSolicitation.push_packet ether e⟩

/-- The relay's answer to the first request of the mobile node. -/
def Deployment.firstRequest : FA × List Action :=
  Relay.push relay foreignAgent 7 (requestFrame mobileNodeAddress ⟨4711, 1⟩)

theorem emitted_messages_verify_deployed :
    (∃ out ∈ outputs 1 Deployment.firstRequest.2, badUdpChecksum (Relay.iph out) = false) ∧
    (∃ p ∈ outputs 0 ((Solicitation.configure Deployment.mobileNodeAddress 5).runTimer
        Deployment.info).2,
      CheckSolicitation.push (p.frame (default : Ether).bytes) =
        [.forward 0 (p.frame (default : Ether).bytes)]) := by
  have hrequest : Relay.relayedRequest Deployment.foreignAgent 7
      (Deployment.requestFrame Deployment.mobileNodeAddress ⟨4711, 1⟩) ∈
        outputs 1 Deployment.firstRequest.2 := by
    decide +kernel
  have hpacket : (Solicitation.configure Deployment.mobileNodeAddress 5).packet ∈
      outputs 0 ((Solicitation.configure Deployment.mobileNodeAddress 5).runTimer
        Deployment.info).2 := by
    decide +kernel
  obtain ⟨-, -, -, hreq, -, hshort, -, hsol⟩ := emitted_messages_verify
  refine ⟨⟨_, hrequest, hreq _ _ _ _ _ hrequest (hshort _ ?_)⟩,
    ⟨_, hpacket, (hsol _ _ _ default hpacket).2 (by decide)⟩⟩
  decide +kernel

/-- A reply with seven header words. Its UDP header reads as a loose source route, whose
end takes in the first byte of the checksum. The header checksum is right, and where an
IP stack looks for the UDP header, behind the options, the destination port is 434. -/
def Deployment.sourceRoutedReply : Packet :=
  let udp : ClickUdp := ⟨131+256*7, 4, htons 28, 0⟩
  let ip : ClickIp :=
    { ipV := 4
      ipHl := 7
      ipTos := 0
      ipLen := htons 48
      ipId := 0
      ipOff := 0
      ipTtl := 64
      ipP := 17
      ipSum := 0
      ipSrc := homeAgentPublicAddress
      ipDst := foreignAgentPublicAddress }
  let rep : RegrepH := ⟨3, 0, htons 434, mobileNodeAddress, homeAgentPublicAddress, 1⟩
  { data := udpData { ip with ipSum := clickInCksum (ip.toBytes ++ udp.toBytes) } udp rep.toBytes
    dstIpAnno := 0 }

theorem sourceRouted_reply_fails :
    clickInCksum (Deployment.sourceRoutedReply.data.take 28) = 0 ∧
      badUdpChecksum Deployment.sourceRoutedReply.data = false ∧
      (outputs 0 (Relay.push Deployment.relay Deployment.firstRequest.1 8
        (Deployment.sourceRoutedReply.frame (default : Ether).bytes)).2).map
          (fun out => badUdpChecksum out.data) = [true] := by
  decide +kernel

end MobileIP
