import MobileIP.Messages
import MobileIP.Advertisement

/-! The replies that the foreign agent makes itself, on its three paths, and whether
the mobile node finds the request that they answer. -/
namespace MobileIP

open LittleEndian VectorSearch

inductive DenialPath where
  | rejected
  | timedOut
  | unreachable
  deriving DecidableEq, Repr

namespace Relay

/-- The entry that is pending for the request in the frame `f`, whatever is left of
its lifetime. -/
def EntryOf (f : Packet) (v : VEntry) : Prop :=
  v = { pendingEntry f with remainingLifetime := v.remainingLifetime }

/-- The packet `d` is a reply that the foreign agent creates, in some state, for the
request in the frame `f`. -/
inductive Denial (f : Packet) : DenialPath → Packet → Prop where
  | rejected (relay : Relay) (fa : FA) (rand : ℕ) (d : Packet)
      (hd : d ∈ outputs 0 (push relay fa rand f).2) : Denial f .rejected d
  | timedOut (fa : FA) (v : VEntry) (hv : EntryOf f v) (h : (ageRequests fa.requests).2 = some v)
      (d : Packet) (hd : d ∈ outputs 0 (runTimer fa).2) : Denial f .timedOut d
  | unreachable (relay : Relay) (fa : FA) (rand : ℕ) (p : Packet) (hp : (ip p).ipP = 1)
      (ht : (icmph p).icmpType = 3) (v : VEntry) (hv : EntryOf f v) (i : ℕ)
      (h : (eraseUnreachable (origip p).ipDst fa.requests).2[i]? = some v) (d : Packet)
      (hd : (outputs 0 (push relay fa rand p).2)[i]? = some d) : Denial f .unreachable d

end Relay

/-- `RegNode::push` matches the reply `d` to the pending request `e`, which stands
between `pre` and `post`, and removes it and nothing else. -/
def RegNode.Removes (node : RegNode) (mn : MNInfo) (pre post : List Request) (e : Request)
    (d : Packet) : Prop :=
  firstMatch (RegNode.answers (ClickIp.ofBytes d.data) (ClickUdp.ofBytes (d.data.drop sizeofClickIp)))
      mn.pending = some (pre.length, e) ∧
    (RegrepH.ofBytes (d.data.drop (sizeofClickIp+sizeofClickUdp))).identification.toUInt32 = e.id ∧
    (RegNode.push node mn d).2.1.pending = pre ++ post

instance (node : RegNode) (mn : MNInfo) (pre post : List Request) (e : Request) (d : Packet) :
    Decidable (RegNode.Removes node mn pre post e d) :=
  inferInstanceAs (Decidable (_ ∧ _ ∧ _))

/-- When a reply of the foreign agent removes the entry, in terms of what is passed to
`createRep`. -/
theorem RegNode.removes_createRep_iff (node : RegNode) (mn : MNInfo) (pre post : List Request)
    (e : Request) (hp : mn.pending = pre ++ e :: post) (code : UInt8) (ipd : IPAddress)
    (udpd : UInt16) (id : UInt64) (ha : IPAddress) :
    RegNode.Removes node mn pre post e (Relay.createRep code e.dest ipd udpd id ha) ↔
      (∀ x ∈ pre, ¬ (x.dest = e.dest ∧ x.port = udpd)) ∧ e.port = udpd ∧ id.toUInt32 = e.id := by
  let ip := Relay.replyIp e.dest ipd
  let udp := Relay.rawUdp udpd
  let rep := Relay.replyHeader code ipd id ha
  have hdport : ntohs udp.uhDport = udpd := ntohs_htons udpd
  have hsrc : ip.ipSrc = e.dest := rfl
  have hfound : firstMatch (RegNode.answers ip udp) mn.pending = some (pre.length, e) ↔
      (∀ x ∈ pre, ¬ (x.dest = e.dest ∧ x.port = udpd)) ∧ e.port = udpd := by
    rw [hp, firstMatch_append_iff]
    simp only [← Bool.not_eq_true, RegNode.answers_iff, hsrc, hdport, true_and]
  -- the search does not read the checksum
  have hans' : RegNode.answers ip (udp.withSum ip rep.toBytes) = RegNode.answers ip udp := rfl
  unfold RegNode.Removes
  rw [Relay.createRep_eq, ip_sealedPacket, udp_sealedPacket, payload_sealedPacket,
    RegrepH.ofBytes_only, hans', hfound]
  constructor
  · rintro ⟨⟨hpre, hport⟩, hid, -⟩
    exact ⟨hpre, hport, hid⟩
  · rintro ⟨hpre, hport, hid⟩
    refine ⟨⟨hpre, hport⟩, hid, ?_⟩
    have hpre' : ∀ x ∈ pre, ¬ (x.dest = ip.ipSrc ∧ x.port = ntohs udp.uhDport) := by
      rw [hdport, hsrc]
      exact hpre
    rw [RegNode.push_matching node mn ip udp rep ipd rfl pre post e hp
      ⟨rfl, hport.trans hdport.symm⟩ hpre' hid]
    split_ifs <;> rfl

namespace DenialPath

/-- The port that each path passes to `createRep`, which converts it once more. -/
def udpd (draw : Draw) : DenialPath → UInt16
  | .rejected => htons (RegReq.port draw)
  | .timedOut => RegReq.port draw
  | .unreachable => RegReq.port draw

def id (draw : Draw) : DenialPath → UInt64
  | .rejected => draw.id.toUInt16.toUInt64
  | .timedOut => (htonl draw.id.toUInt32).toUInt64
  | .unreachable => draw.id

/-- The port and the identification of the request survive the conversions of the path. -/
def Survives (draw : Draw) : DenialPath → Prop
  | .rejected => htons (RegReq.port draw) = RegReq.port draw ∧ draw.id.toUInt32 < 65536
  | .timedOut => htonl draw.id.toUInt32 = draw.id.toUInt32
  | .unreachable => True

theorem survives_iff (draw : Draw) (path : DenialPath) :
    path.Survives draw ↔
      RegReq.port draw = path.udpd draw ∧ (path.id draw).toUInt32 = draw.id.toUInt32 := by
  cases path with
  | rejected =>
    -- the halfword is extended with zeros again
    have hlow : draw.id.toUInt16.toUInt64.toUInt32 = draw.id.toUInt32 ↔
        draw.id.toUInt32 < 65536 := by
      rw [← UInt32.toNat_inj, UInt32.lt_iff_toNat_lt]
      simp only [UInt64.toNat_toUInt32, UInt16.toNat_toUInt64, UInt64.toNat_toUInt16]
      change draw.id.toNat%65536%4294967296 = draw.id.toNat%4294967296 ↔
        draw.id.toNat%4294967296 < 65536
      omega
    simp only [Survives, udpd, id, hlow]
    exact and_congr eq_comm Iff.rfl
  | timedOut => simp [Survives, udpd, id]
  | unreachable => simp [Survives, udpd, id]

end DenialPath

theorem Relay.pendingEntry_makePacket (mn : MNInfo) (draw : Draw) (dest : IPAddress)
    (lifetime : UInt16) (co : IPAddress) (ether : Ether) :
    let v := Relay.pendingEntry ((RegReq.makePacket mn draw dest lifetime co).2.frame ether.bytes)
    v.ipDst = dest ∧ v.udpSrc = RegReq.port draw ∧ v.id = draw.id := by
  rw [RegReq.makePacket_eq]
  simp only [Relay.pendingEntry, Relay.ip_sealed, Relay.udp_sealed, Relay.reqh_sealed]
  exact ⟨rfl, ntohs_htons _, rfl⟩

theorem Relay.Denial.eq_createRep (mn : MNInfo) (draw : Draw) (dest : IPAddress)
    (lifetime : UInt16) (co : IPAddress) (ether : Ether) (path : DenialPath) (d : Packet)
    (h : Relay.Denial ((RegReq.makePacket mn draw dest lifetime co).2.frame ether.bytes) path d) :
    ∃ code ipd ha, d = Relay.createRep code dest ipd (path.udpd draw) (path.id draw) ha := by
  -- on every path the source of the reply is the destination of the request
  obtain ⟨hdst, hsrc, hid⟩ := Relay.pendingEntry_makePacket mn draw dest lifetime co ether
  cases h with
  | rejected relay fa rand d hd =>
    rw [RegReq.makePacket_eq, Relay.push_request ether relay fa rand _ _ _ _ rfl rfl] at hd
    cases hc : Relay.rejectCode relay fa (RegReq.requestHeader mn draw lifetime co).flags with
    | none => simp [hc, outputs, Action.sent] at hd
    | some code =>
      simp only [hc, outputs, Action.sent, List.filterMap_cons, List.filterMap_nil, if_true,
        List.mem_singleton] at hd
      exact ⟨code, _, _, hd⟩
  | timedOut fa v hv hage d hd =>
    have hout : outputs 0 (Relay.runTimer fa).2 = [Relay.timeoutRep v] := by
      unfold Relay.runTimer
      dsimp only
      rw [hage]
      rfl
    rw [hout, List.mem_singleton] at hd
    rw [hd, Relay.timeoutRep, hv]
    dsimp only
    rw [hdst, hsrc, hid]
    exact ⟨_, _, _, rfl⟩
  | unreachable relay fa rand p hp ht v hv i hi d hd =>
    have hout : outputs 0 (Relay.push relay fa rand p).2 =
        (Relay.eraseUnreachable (Relay.origip p).ipDst fa.requests).2.map
          (Relay.unreachableRep (Relay.icmph p).icmpCode (Relay.origip p).ipDst) := by
      unfold Relay.push Relay.pushIcmp
      rw [if_pos hp, if_pos ht]
      exact Relay.outputs_map_emit _ _
    rw [hout, List.getElem?_map, hi, Option.map_some, Option.some.injEq] at hd
    rw [← hd, Relay.unreachableRep, hv]
    dsimp only
    rw [hdst, hsrc, hid]
    exact ⟨_, _, _, rfl⟩

/-- A reply that the foreign agent makes for a request removes exactly that request's
entry if and only if no earlier entry has the same destination and port and the path
preserves the port and the identification. -/
theorem denial_removes_iff (mn₀ : MNInfo) (draw : Draw) (dest : IPAddress) (lifetime : UInt16)
    (co : IPAddress) (ether : Ether) (path : DenialPath) (d : Packet)
    (hd : Relay.Denial ((RegReq.makePacket mn₀ draw dest lifetime co).2.frame ether.bytes) path d)
    (node : RegNode) (mn : MNInfo) (pre post : List Request) (e : Request)
    (he : e = { RegReq.pendingRequest draw dest lifetime co with remLt := e.remLt })
    (hp : mn.pending = pre ++ e :: post) :
    RegNode.Removes node mn pre post e d ↔
      (∀ x ∈ pre, ¬ (x.dest = dest ∧ x.port = RegReq.port draw)) ∧ path.Survives draw := by
  obtain ⟨code, ipd, ha, rfl⟩ := hd.eq_createRep
  have hdest : e.dest = dest := by rw [he]; rfl
  have hport : e.port = RegReq.port draw := by rw [he]; rfl
  have hid : e.id = draw.id.toUInt32 := by rw [he]; rfl
  have hremoves := RegNode.removes_createRep_iff node mn pre post e hp code ipd (path.udpd draw)
    (path.id draw) ha
  rw [hdest, hport, hid] at hremoves
  rw [hremoves, DenialPath.survives_iff]
  constructor
  · rintro ⟨hpre, hu, hi⟩
    rw [← hu] at hpre
    exact ⟨hpre, hu, hi⟩
  · rintro ⟨hpre, hu, hi⟩
    rw [hu] at hpre
    exact ⟨hpre, hu, hi⟩

/-- The mobile node with one request pending, and that request. -/
def Deployment.waiting (draw : Draw) : MNInfo :=
  (RegReq.makePacket info draw foreignAgentPrivateAddress 100 foreignAgentPublicAddress).1

def Deployment.waitingRequest (draw : Draw) : Request :=
  RegReq.pendingRequest draw foreignAgentPrivateAddress 100 foreignAgentPublicAddress

def Deployment.rejections (draw : Draw) : List Packet :=
  outputs 0 (Relay.push { relay with registrationLimit := 0 } foreignAgent 0
    (requestFrame mobileNodeAddress draw)).2

/-- Port 257 has two equal bytes. -/
theorem denial_removes_port_257 :
    ∃ d ∈ Deployment.rejections ⟨257, 5⟩,
      RegNode.Removes Deployment.rn (Deployment.waiting ⟨257, 5⟩) [] []
        (Deployment.waitingRequest ⟨257, 5⟩) d := by
  have hd : Relay.createRep 66 Deployment.foreignAgentPrivateAddress Deployment.mobileNodeAddress
      (htons 257) 5 Deployment.homeAgentPublicAddress ∈ Deployment.rejections ⟨257, 5⟩ := by
    decide +kernel
  refine ⟨_, hd, ?_⟩
  exact (denial_removes_iff Deployment.info ⟨257, 5⟩ Deployment.foreignAgentPrivateAddress 100
    Deployment.foreignAgentPublicAddress default .rejected _
    (.rejected { Deployment.relay with registrationLimit := 0 } Deployment.foreignAgent 0 _ hd)
    Deployment.rn (Deployment.waiting ⟨257, 5⟩) [] [] _ rfl rfl).mpr
    ⟨by simp, by decide +kernel, by decide +kernel⟩

/-- The rejection of a request sent from port 4711 removes nothing. -/
theorem denial_misses_port_4711 :
    ∃ d ∈ Deployment.rejections ⟨4711, 5⟩,
      ¬ RegNode.Removes Deployment.rn (Deployment.waiting ⟨4711, 5⟩) [] []
        (Deployment.waitingRequest ⟨4711, 5⟩) d := by
  decide +kernel

end MobileIP
