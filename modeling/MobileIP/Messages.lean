import MobileIP.MobileNode
import MobileIP.HomeAgent
import MobileIP.Visitors

/-! How each handler acts on an intact registration message, in terms of the
message's header fields alone. Every message that an element emits is intact, so
these are the only facts about packet bytes that the protocol results need. -/
namespace MobileIP

open LittleEndian VectorSearch

/-- An IP packet that carries a UDP message with its checksum filled in. -/
def sealedPacket (ip : ClickIp) (udp : ClickUdp) (payload : Bytes) (anno : IPAddress) : Packet where
  data := sealedData ip udp payload
  dstIpAnno := anno

theorem ip_sealedPacket (ip : ClickIp) (udp : ClickUdp) (pl : Bytes) (a : IPAddress) :
    ClickIp.ofBytes (sealedPacket ip udp pl a).data = ip :=
  ofBytes_sealedData ip udp pl

theorem udp_sealedPacket (ip : ClickIp) (udp : ClickUdp) (pl : Bytes) (a : IPAddress) :
    ClickUdp.ofBytes ((sealedPacket ip udp pl a).data.drop sizeofClickIp) = udp.withSum ip pl :=
  ofBytes_drop_sealedData ip udp pl

theorem payload_sealedPacket (ip : ClickIp) (udp : ClickUdp) (pl : Bytes) (a : IPAddress) :
    (sealedPacket ip udp pl a).data.drop (sizeofClickIp+sizeofClickUdp) = pl :=
  drop_sealedData_payload ip udp pl

section Relay

variable (ether : Ether)

@[simp] theorem Relay.iph_frame (p : Packet) : Relay.iph (p.frame ether.bytes) = p.data :=
  drop_frame ether p.data

@[simp] theorem Relay.ip_sealed (ip : ClickIp) (udp : ClickUdp) (pl : Bytes) (a : IPAddress) :
    Relay.ip ((sealedPacket ip udp pl a).frame ether.bytes) = ip := by
  rw [Relay.ip, Relay.iph_frame]
  exact ofBytes_sealedData ip udp pl

@[simp] theorem Relay.udp_sealed (ip : ClickIp) (udp : ClickUdp) (pl : Bytes) (a : IPAddress) :
    Relay.udp ((sealedPacket ip udp pl a).frame ether.bytes) = udp.withSum ip pl := by
  rw [Relay.udp, Relay.iph_frame]
  exact ofBytes_drop_sealedData ip udp pl

@[simp] theorem Relay.payload_sealed (ip : ClickIp) (udp : ClickUdp) (pl : Bytes) (a : IPAddress) :
    Relay.payload ((sealedPacket ip udp pl a).frame ether.bytes) = pl := by
  rw [Relay.payload, Relay.iph_frame]
  exact drop_sealedData_payload ip udp pl

@[simp] theorem Relay.reqh_sealed (ip : ClickIp) (udp : ClickUdp) (req : RegreqH) (a : IPAddress) :
    Relay.reqh ((sealedPacket ip udp req.toBytes a).frame ether.bytes) = req := by
  rw [Relay.reqh, Relay.payload_sealed, RegreqH.ofBytes_only]

@[simp] theorem Relay.reph_sealed (ip : ClickIp) (udp : ClickUdp) (rep : RegrepH) (a : IPAddress) :
    Relay.reph ((sealedPacket ip udp rep.toBytes a).frame ether.bytes) = rep := by
  rw [Relay.reph, Relay.payload_sealed, RegrepH.ofBytes_only]

theorem Relay.badUdpChecksum_sealed (ip : ClickIp) (udp : ClickUdp) (pl : Bytes) (a : IPAddress)
    (hl : ip.ipHl = 5) (hp : pl.length ≤ 65536) :
    badUdpChecksum (Relay.iph ((sealedPacket ip udp pl a).frame ether.bytes)) = false := by
  rw [Relay.iph_frame]
  exact badUdpChecksum_sealedData ip hl udp pl hp

theorem Relay.length_sealed (ip : ClickIp) (udp : ClickUdp) (pl : Bytes) (a : IPAddress) :
    ((sealedPacket ip udp pl a).frame ether.bytes).data.length-sizeofClickEther = 28+pl.length := by
  simp only [Packet.frame, sealedPacket, length_frame, length_sealedData]
  exact Nat.add_sub_cancel_left 14 _

theorem Relay.rewrite_sealed (ip ip' : ClickIp) (udp udp' : ClickUdp) (pl : Bytes) (a : IPAddress) :
    Relay.rewrite ((sealedPacket ip udp pl a).frame ether.bytes) ip' udp' =
      ether.bytes ++ sealedData ip' udp' pl := by
  have htake : ((sealedPacket ip udp pl a).frame ether.bytes).data.take sizeofClickEther =
      ether.bytes :=
    List.take_left' ether.length_eq
  rw [Relay.rewrite, htake, Relay.payload_sealed]
  rfl

def relayedIp (fa : FA) (ip : ClickIp) (req : RegreqH) : ClickIp :=
  { ip with ipLen := htons 52, ipTtl := 64, ipSrc := fa.address, ipDst := req.homeAgent }

@[simp] theorem relayedIp_ipHl (fa : FA) (ip : ClickIp) (req : RegreqH) :
    (relayedIp fa ip req).ipHl = ip.ipHl := by
  simp only [relayedIp]

@[simp] theorem relayedIp_ipP (fa : FA) (ip : ClickIp) (req : RegreqH) :
    (relayedIp fa ip req).ipP = ip.ipP := by
  simp only [relayedIp]

def relayedUdp (rand : ℕ) (udp : ClickUdp) : ClickUdp :=
  { udp with uhSport := htons (UInt16.ofNat (rand%(65535-49152)+49152)) }

theorem Relay.relayedRequest_sealed (fa : FA) (rand : ℕ) (ip : ClickIp) (udp : ClickUdp)
    (req : RegreqH) (a : IPAddress) :
    Relay.relayedRequest fa rand ((sealedPacket ip udp req.toBytes a).frame ether.bytes) =
      (sealedPacket (relayedIp fa ip req) (relayedUdp rand udp) req.toBytes req.homeAgent).frame
        ether.bytes := by
  simp only [Relay.relayedRequest, Relay.rewrite_sealed, Relay.ip_sealed, Relay.udp_sealed,
    Relay.reqh_sealed, Relay.length_sealed]
  rfl

theorem Relay.relayedReply_sealed (relay : Relay) (ip : ClickIp) (udp : ClickUdp) (rep : RegrepH)
    (a : IPAddress) (udpDst : UInt16) :
    Relay.relayedReply relay ((sealedPacket ip udp rep.toBytes a).frame ether.bytes) udpDst =
      sealedPacket { ip with ipSrc := relay.privateIP, ipDst := rep.homeAddress }
        { udp with uhDport := htons udpDst } rep.toBytes rep.homeAddress := by
  have h14 : ether.bytes.length = 14 := ether.length_eq
  simp only [Relay.relayedReply, Relay.rewrite_sealed, Relay.ip_sealed, Relay.udp_sealed,
    Relay.reph_sealed, List.drop_left' h14]
  rfl

theorem Relay.push_request (relay : Relay) (fa : FA) (rand : ℕ) (ip : ClickIp) (udp : ClickUdp)
    (req : RegreqH) (a : IPAddress) (hl : ip.ipHl = 5) (hp : ip.ipP = 17) :
    Relay.push relay fa rand ((sealedPacket ip udp req.toBytes a).frame ether.bytes) =
      match Relay.rejectCode relay fa req.flags with
      | some code =>
        (fa, [.emit 0 (Relay.createRep code ip.ipDst ip.ipSrc udp.uhSport
          req.identification.toUInt16.toUInt64 req.homeAgent), .kill])
      | none =>
        ({ fa with requests := fa.requests ++
            [Relay.pendingEntry ((sealedPacket ip udp req.toBytes a).frame ether.bytes)] },
          [.forward 1 ((sealedPacket (relayedIp fa ip req) (relayedUdp rand udp) req.toBytes
            req.homeAgent).frame ether.bytes)]) := by
  have hip : ¬ ip.ipP = 1 := by
    rw [hp]
    decide
  have hsize : 28+req.toBytes.length = sizeofClickIp+sizeofClickUdp+sizeofRegreqH := rfl
  unfold Relay.push
  simp only [Relay.ip_sealed, if_neg hip, Relay.length_sealed, if_pos hsize]
  unfold Relay.relayReq
  rw [Relay.badUdpChecksum_sealed ether ip udp _ a hl (by simp), Relay.reqh_sealed,
    Relay.ip_sealed, Relay.udp_sealed, Relay.relayedRequest_sealed]
  rfl

theorem Relay.push_reply (relay : Relay) (fa : FA) (rand : ℕ) (ip : ClickIp) (udp : ClickUdp)
    (rep : RegrepH) (a : IPAddress) (hl : ip.ipHl = 5) (hp : ip.ipP = 17) :
    Relay.push relay fa rand ((sealedPacket ip udp rep.toBytes a).frame ether.bytes) =
      match firstMatch (fun e => e.ipSrc == rep.homeAddress) fa.requests with
      | none => (fa, [.kill])
      | some (i, entry) =>
        ({ fa with
            registrations := Relay.updateRegistrations fa.registrations entry rep
            requests := fa.requests.eraseIdx i },
          [.forward 0 (sealedPacket { ip with ipSrc := relay.privateIP, ipDst := rep.homeAddress }
            { udp with uhDport := htons (Relay.staleEntry fa.requests i entry).udpSrc }
            rep.toBytes rep.homeAddress)]) := by
  have hip : ¬ ip.ipP = 1 := by
    rw [hp]
    decide
  have hsize : 28+rep.toBytes.length = sizeofClickIp+sizeofClickUdp+sizeofRegrepH := rfl
  have hreq : ¬ 28+rep.toBytes.length = sizeofClickIp+sizeofClickUdp+sizeofRegreqH := by
    rw [hsize]
    decide
  unfold Relay.push
  simp only [Relay.ip_sealed, if_neg hip, Relay.length_sealed, if_neg hreq, if_pos hsize]
  unfold Relay.relayRep
  simp only [Relay.badUdpChecksum_sealed ether ip udp _ a hl (show rep.toBytes.length ≤ 65536 by simp),
    Relay.reph_sealed, Relay.relayedReply_sealed]
  rfl

def Relay.rawUdp (udpd : UInt16) : ClickUdp where
  uhSport := htons 434
  uhDport := htons udpd
  uhUlen := htons 28
  uhSum := 0

theorem Relay.createRep_eq (code : UInt8) (ips ipd : IPAddress) (udpd : UInt16) (id : UInt64)
    (homeAgent : IPAddress) :
    Relay.createRep code ips ipd udpd id homeAgent =
      sealedPacket (Relay.replyIp ips ipd) (Relay.rawUdp udpd)
        (Relay.replyHeader code ipd id homeAgent).toBytes ipd := rfl

theorem Relay.rejectCode_zero_flags (relay : Relay) (fa : FA)
    (h : relay.registrationLimit < 0 ∨ (fa.registrations.length : ℤ) < relay.registrationLimit) :
    Relay.rejectCode relay fa 0 = none := by
  -- with zero flags only the limit is left
  have hn : ¬ (-1 < relay.registrationLimit ∧ relay.registrationLimit ≤ fa.registrations.length) := by
    omega
  unfold Relay.rejectCode
  rw [if_neg hn]
  rfl

/-- A request of the mobile node is relayed as long as the limit is not met. -/
theorem Relay.push_admitted (relay : Relay) (fa : FA) (rand : ℕ) (ip : ClickIp) (udp : ClickUdp)
    (req : RegreqH) (a : IPAddress) (hl : ip.ipHl = 5) (hp : ip.ipP = 17) (hf : req.flags = 0)
    (h : relay.registrationLimit < 0 ∨ (fa.registrations.length : ℤ) < relay.registrationLimit) :
    Relay.push relay fa rand ((sealedPacket ip udp req.toBytes a).frame ether.bytes) =
      ({ fa with requests := fa.requests ++
          [Relay.pendingEntry ((sealedPacket ip udp req.toBytes a).frame ether.bytes)] },
        [.forward 1 ((sealedPacket (relayedIp fa ip req) (relayedUdp rand udp) req.toBytes
          req.homeAgent).frame ether.bytes)]) := by
  rw [Relay.push_request ether relay fa rand ip udp req a hl hp, hf,
    Relay.rejectCode_zero_flags relay fa h]

theorem Relay.rejectCode_some (relay : Relay) (fa : FA) (flags code : UInt8)
    (h : Relay.rejectCode relay fa flags = some code) : ¬ (code = 0 ∨ code = 1) := by
  -- the only codes are 66 and 70
  unfold Relay.rejectCode at h
  dsimp only at h
  split_ifs at h <;> cases h <;> decide

/-- A reply is applied to the first pending entry of its mobile node. The port is that
of the entry behind it, unless there is none. -/
theorem Relay.push_reply_split (relay : Relay) (fa : FA) (rand : ℕ) (ip : ClickIp) (udp : ClickUdp)
    (rep : RegrepH) (a : IPAddress) (hl : ip.ipHl = 5) (hp : ip.ipP = 17)
    (pre post : List VEntry) (entry : VEntry) (hreq : fa.requests = pre ++ entry :: post)
    (he : entry.ipSrc = rep.homeAddress) (hpre : ∀ e ∈ pre, e.ipSrc ≠ rep.homeAddress) :
    Relay.push relay fa rand ((sealedPacket ip udp rep.toBytes a).frame ether.bytes) =
      ({ fa with
          registrations := Relay.updateRegistrations fa.registrations entry rep
          requests := pre ++ post },
        [.forward 0 (sealedPacket { ip with ipSrc := relay.privateIP, ipDst := rep.homeAddress }
          { udp with uhDport := htons (post.headD entry).udpSrc } rep.toBytes
          rep.homeAddress)]) := by
  have hm : firstMatch (fun e => e.ipSrc == rep.homeAddress) fa.requests =
      some (pre.length, entry) := by
    rw [hreq]
    exact firstMatch_append _ pre post entry (by simpa using he) (by simpa using hpre)
  have herase : fa.requests.eraseIdx pre.length = pre ++ post := by
    rw [hreq, eraseIdx_split]
  have hstale : Relay.staleEntry fa.requests pre.length entry = post.headD entry := by
    rw [hreq, Relay.staleEntry_split]
  rw [Relay.push_reply ether relay fa rand ip udp rep a hl hp, hm]
  dsimp only
  rw [herase, hstale]

end Relay

/-- The UDP header of the home agent's reply before its checksum is filled in. -/
def RegRep.rawUdp (udp : ClickUdp) : ClickUdp where
  uhSport := udp.uhDport
  uhDport := udp.uhSport
  uhUlen := htons 28
  uhSum := 0

theorem RegRep.push_request (ha : HA) (ip : ClickIp) (udp : ClickUdp) (req : RegreqH)
    (a : IPAddress) (ht : req.type = 1) :
    RegRep.push ha (sealedPacket ip udp req.toBytes a) =
      let code := RegRep.checkAcceptable ha (sealedPacket ip udp req.toBytes a)
      let rep := RegRep.replyHeader code req
      (if code = 0 ∨ code = 1 then RegRep.updateBindings ha req else ha,
        [.emit (if req.homeAddress = req.careOfAddress then 0 else 1)
          (sealedPacket (RegRep.replyIp ip) (RegRep.rawUdp udp) rep.toBytes ip.ipSrc), .kill]) := by
  have hreq : RegRep.request (sealedPacket ip udp req.toBytes a) = req := RegreqH.ofBytes_only req
  unfold RegRep.push RegRep.replyPacket
  simp only [hreq, ip_sealedPacket, udp_sealedPacket, if_pos ht]
  -- the two outputs differ only in their number
  by_cases hc : req.homeAddress = req.careOfAddress
  · simp only [if_pos hc]
    rfl
  · simp only [if_neg hc]
    rfl

theorem RegRep.checkAcceptable_zero_flags (ha : HA) (ip : ClickIp) (udp : ClickUdp) (req : RegreqH)
    (a : IPAddress) (hf : req.flags = 0) :
    RegRep.checkAcceptable ha (sealedPacket ip udp req.toBytes a) =
      if req.homeAgent = 0xffffffff then 136 else 0 := by
  -- the B bit is zero, so it does not matter whether a binding was found
  have hreq : RegRep.request (sealedPacket ip udp req.toBytes a) = req := RegreqH.ofBytes_only req
  simp [RegRep.checkAcceptable, hreq, hf]

theorem RegRep.checkAcceptable_lt (ha : HA) (q : Packet) : RegRep.checkAcceptable ha q < 256 := by
  unfold RegRep.checkAcceptable
  dsimp only
  split_ifs <;> decide

/-- The erase loop removes the entries of the address and keeps the others in order. -/
theorem RegRep.eraseBindings_eq_filter (home : IPAddress) (bs : List MobileInfo) :
    RegRep.eraseBindings home bs = bs.filter (fun mi => mi.address ≠ home) := by
  induction bs with
  | nil => rfl
  | cons mi bs ih =>
    by_cases h : mi.address = home
    · simp [RegRep.eraseBindings, h, ih]
    · simp [RegRep.eraseBindings, h, ih]

/-- The home agent accepts every request of the mobile node that names a home agent. -/
theorem RegRep.push_accepted (ha : HA) (ip : ClickIp) (udp : ClickUdp) (req : RegreqH)
    (a : IPAddress) (ht : req.type = 1) (hf : req.flags = 0) (hha : req.homeAgent ≠ 0xffffffff) :
    RegRep.push ha (sealedPacket ip udp req.toBytes a) =
      (RegRep.updateBindings ha req,
        [.emit (if req.homeAddress = req.careOfAddress then 0 else 1)
          (sealedPacket (RegRep.replyIp ip) (RegRep.rawUdp udp)
            (RegRep.replyHeader 0 req).toBytes ip.ipSrc), .kill]) := by
  rw [RegRep.push_request ha ip udp req a ht,
    RegRep.checkAcceptable_zero_flags ha ip udp req a hf, if_neg hha]
  rfl

theorem RegRep.push_registration (ha : HA) (ip : ClickIp) (udp : ClickUdp) (req : RegreqH)
    (a : IPAddress) (ht : req.type = 1) (hf : req.flags = 0) (hha : req.homeAgent ≠ 0xffffffff)
    (hne : req.homeAddress ≠ req.careOfAddress) :
    RegRep.push ha (sealedPacket ip udp req.toBytes a) =
      ({ ha with mobilityBindings := ha.mobilityBindings ++ [RegRep.newBinding req] },
        [.emit 1 (sealedPacket (RegRep.replyIp ip) (RegRep.rawUdp udp)
          (RegRep.replyHeader 0 req).toBytes ip.ipSrc), .kill]) := by
  rw [RegRep.push_accepted ha ip udp req a ht hf hha, RegRep.updateBindings, if_neg hne, if_neg hne]

theorem RegRep.push_deregistration (ha : HA) (ip : ClickIp) (udp : ClickUdp) (req : RegreqH)
    (a : IPAddress) (ht : req.type = 1) (hf : req.flags = 0) (hha : req.homeAgent ≠ 0xffffffff)
    (heq : req.homeAddress = req.careOfAddress) :
    RegRep.push ha (sealedPacket ip udp req.toBytes a) =
      ({ ha with mobilityBindings := RegRep.eraseBindings req.homeAddress ha.mobilityBindings },
        [.emit 0 (sealedPacket (RegRep.replyIp ip) (RegRep.rawUdp udp)
          (RegRep.replyHeader 0 req).toBytes ip.ipSrc), .kill]) := by
  rw [RegRep.push_accepted ha ip udp req a ht hf hha, RegRep.updateBindings, if_pos heq, if_pos heq]

theorem RegNode.push_reply (node : RegNode) (mn : MNInfo) (ip : ClickIp) (udp : ClickUdp)
    (rep : RegrepH) (a : IPAddress) (hl : ip.ipHl = 5) :
    RegNode.push node mn (sealedPacket ip udp rep.toBytes a) =
      match firstMatch (RegNode.answers ip udp) mn.pending with
      | none => (node, mn, [.kill])
      | some (i, r) =>
        if rep.identification.toUInt32 ≠ r.id then (node, mn, [.kill])
        else if rep.code = 0 ∨ rep.code = 1 then
          if ip.ipSrc ≠ mn.gateway then
            ({ node with timer := true },
              { RegNode.register mn r rep with pending := mn.pending.eraseIdx i }, [.kill])
          else ({ node with timer := false }, { mn with pending := mn.pending.eraseIdx i }, [.kill])
        else (node, { mn with pending := mn.pending.eraseIdx i }, [.kill]) := by
  have hsum : badUdpChecksum (sealedPacket ip udp rep.toBytes a).data = false :=
    badUdpChecksum_sealedData ip hl udp _ (by simp)
  have hans : RegNode.answers ip (udp.withSum ip rep.toBytes) = RegNode.answers ip udp := rfl
  unfold RegNode.push
  simp only [ip_sealedPacket, udp_sealedPacket, payload_sealedPacket, RegrepH.ofBytes_only, hsum, hans]
  rfl

def RegReq.rawUdp (draw : Draw) : ClickUdp where
  uhSport := htons (RegReq.port draw)
  uhDport := htons 434
  uhUlen := htons 32
  uhSum := 0

theorem RegReq.makePacket_eq (mn : MNInfo) (draw : Draw) (dest : IPAddress) (lifetime : UInt16)
    (co : IPAddress) :
    RegReq.makePacket mn draw dest lifetime co =
      ({ mn with pending := mn.pending ++ [RegReq.pendingRequest draw dest lifetime co] },
        sealedPacket (RegReq.requestIp mn dest) (RegReq.rawUdp draw)
          (RegReq.requestHeader mn draw lifetime co).toBytes dest) := rfl

theorem RegReq.push_foreign (mn : MNInfo) (draw : Draw) (adv : Packet)
    (hsrc : (RegReq.aip adv).ipSrc ≠ mn.gateway) (hf : RegReq.foreign adv) :
    RegReq.push mn draw adv =
      let r := RegReq.makePacket mn draw (RegReq.aip adv).ipSrc (ntohs (RegReq.ahx adv).lifetime)
        (RegReq.ahx adv).address
      (r.1, [.emit 0 r.2, .kill]) := by
  unfold RegReq.push
  dsimp only
  rw [if_neg hsrc, if_pos hf]
  rfl

theorem RegReq.push_home (mn : MNInfo) (draw : Draw) (adv : Packet)
    (hsrc : (RegReq.aip adv).ipSrc = mn.gateway) (hh : RegReq.home adv)
    (hfa : mn.foreignAgent ≠ mn.gateway) :
    RegReq.push mn draw adv =
      let r := RegReq.makePacket { mn with foreignAgent := mn.gateway, lifetime := 0 } draw
        mn.gateway 0 mn.homeAddress
      (r.1, [.emit 0 r.2, .kill]) := by
  unfold RegReq.push
  dsimp only
  rw [if_pos hsrc, if_pos ⟨hfa, hh⟩, hsrc]

theorem RegReq.push_home_silent (mn : MNInfo) (draw : Draw) (adv : Packet)
    (hsrc : (RegReq.aip adv).ipSrc = mn.gateway) (hfa : mn.foreignAgent = mn.gateway) :
    RegReq.push mn draw adv = (mn, [.kill]) := by
  unfold RegReq.push
  dsimp only
  rw [if_pos hsrc, if_neg (fun h => h.1 hfa)]

/-- A foreign agent's advertisement that names the mobile node's own address as the
care-of address. -/
def RegReq.offersHome (mn : MNInfo) (adv : Packet) : Prop :=
  (RegReq.aip adv).ipSrc ≠ mn.gateway ∧ RegReq.foreign adv ∧
    (RegReq.ahx adv).address = mn.homeAddress

instance (mn : MNInfo) (adv : Packet) : Decidable (RegReq.offersHome mn adv) :=
  inferInstanceAs (Decidable (_ ∧ _ ∧ _))

/-- What an advertisement can make `RegReq` do: nothing, or send one request, which goes
to the gateway if it is a deregistration. Only with a deregistration does the node change
its agent, to the gateway. -/
theorem RegReq.push_cases (mn : MNInfo) (draw : Draw) (adv : Packet) :
    RegReq.push mn draw adv = (mn, [.kill]) ∨
    ∃ mn₁ dest lifetime co,
      RegReq.push mn draw adv = ((RegReq.makePacket mn₁ draw dest lifetime co).1,
        [.emit 0 (RegReq.makePacket mn₁ draw dest lifetime co).2, .kill]) ∧
      mn₁.pending = mn.pending ∧ mn₁.gateway = mn.gateway ∧ mn₁.homeAddress = mn.homeAddress ∧
      (co = mn.homeAddress → dest = mn.gateway ∨ RegReq.offersHome mn adv) ∧
      (mn₁.foreignAgent = mn.foreignAgent ∨
        mn₁.foreignAgent = mn.gateway ∧ dest = mn.gateway ∧ co = mn.homeAddress) := by
  by_cases hsrc : (RegReq.aip adv).ipSrc = mn.gateway
  · by_cases hh : mn.foreignAgent ≠ mn.gateway ∧ RegReq.home adv
    · refine Or.inr ⟨{ mn with foreignAgent := mn.gateway, lifetime := 0 }, mn.gateway, 0,
        mn.homeAddress, RegReq.push_home mn draw adv hsrc hh.2 hh.1, rfl, rfl, rfl, ?_, ?_⟩
      · exact fun _ => Or.inl rfl
      · exact Or.inr ⟨rfl, rfl, rfl⟩
    · left
      unfold RegReq.push
      dsimp only
      rw [if_pos hsrc, if_neg hh]
  · by_cases hf : RegReq.foreign adv
    · exact Or.inr ⟨mn, _, _, _, RegReq.push_foreign mn draw adv hsrc hf, rfl, rfl, rfl,
        fun hco => Or.inr ⟨hsrc, hf, hco⟩, Or.inl rfl⟩
    · left
      unfold RegReq.push
      dsimp only
      rw [if_neg hsrc, if_neg hf]

theorem RegReq.mem_agePending (l : List Request) (r : Request) (h : r ∈ RegReq.agePending l) :
    ∃ old ∈ l, r = { old with remLt := r.remLt } := by
  -- an entry that stays changes only its remaining lifetime
  induction l with
  | nil => simp [RegReq.agePending] at h
  | cons x l ih =>
    unfold RegReq.agePending at h
    dsimp only at h
    split_ifs at h
    · rcases List.mem_cons.mp h with rfl | h
      · exact ⟨x, by simp, rfl⟩
      · obtain ⟨old, hold, hr⟩ := ih h
        exact ⟨old, by simp [hold], hr⟩
    · obtain ⟨old, hold, hr⟩ := ih h
      exact ⟨old, by simp [hold], hr⟩

/-- What the timer of `RegNode` can do to the mobile node: count down, or count down and
hand a stored advertisement to `RegReq`. -/
theorem RegNode.runTimer_cases (node : RegNode) (mn : MNInfo) (draw : Draw) :
    (∃ mn', RegNode.runTimer node mn draw = ({ node with timer := true }, mn', [], []) ∧
      mn'.pending = mn.pending ∧ mn'.gateway = mn.gateway ∧ mn'.homeAddress = mn.homeAddress ∧
      mn'.foreignAgent = mn.foreignAgent) ∨
    ∃ adv connected, mn.advertisements.lookup mn.foreignAgent = some adv ∧
      let r := RegReq.push { mn with lifetime := mn.lifetime-1 } draw adv
      RegNode.runTimer node mn draw =
        ({ node with timer := true }, { r.1 with connected := connected }, [.emit 0 adv], r.2) := by
  unfold RegNode.runTimer
  dsimp only
  by_cases hl : 0 < mn.lifetime
  · rw [if_pos hl]
    generalize hr : (if (mn.lifetime-1).toUInt32 = node.registrationAlmostOver then
      mn.advertisements.lookup mn.foreignAgent else none) = renewal
    cases renewal with
    | none =>
      left
      dsimp only
      split_ifs
      · exact ⟨_, rfl, rfl, rfl, rfl, rfl⟩
      · exact ⟨_, rfl, rfl, rfl, rfl, rfl⟩
    | some adv =>
      have hadv : mn.advertisements.lookup mn.foreignAgent = some adv := by
        split_ifs at hr
        exact hr
      right
      dsimp only
      split_ifs
      · exact ⟨adv, false, hadv, rfl⟩
      · exact ⟨adv, _, hadv, rfl⟩
  · rw [if_neg hl]
    exact Or.inl ⟨mn, rfl, rfl, rfl, rfl, rfl⟩

theorem RegNode.push_frame (node : RegNode) (mn : MNInfo) (p : Packet) :
    (RegNode.push node mn p).2.1.gateway = mn.gateway ∧
      (RegNode.push node mn p).2.1.homeAddress = mn.homeAddress ∧
      (RegNode.push node mn p).2.1.pending.Sublist mn.pending := by
  -- every branch keeps the pending list or erases one index of it
  unfold RegNode.push
  dsimp only
  split
  · exact ⟨rfl, rfl, List.Sublist.refl _⟩
  · split_ifs
    · exact ⟨rfl, rfl, List.eraseIdx_sublist _ _⟩
    · exact ⟨rfl, rfl, List.Sublist.refl _⟩
    · exact ⟨rfl, rfl, List.eraseIdx_sublist _ _⟩
    · exact ⟨rfl, rfl, List.eraseIdx_sublist _ _⟩
    · exact ⟨rfl, rfl, List.eraseIdx_sublist _ _⟩

theorem RegNode.answers_iff (ip : ClickIp) (udp : ClickUdp) (x : Request) :
    RegNode.answers ip udp x = true ↔ x.dest = ip.ipSrc ∧ x.port = ntohs udp.uhDport := by
  simp only [RegNode.answers, Bool.and_eq_true, beq_iff_eq]

/-- A reply that carries the identification of the first pending request from its
source and for its port removes that request, whatever its code. -/
theorem RegNode.push_matching (node : RegNode) (mn : MNInfo) (ip : ClickIp) (udp : ClickUdp)
    (rep : RegrepH) (a : IPAddress) (hl : ip.ipHl = 5) (pre post : List Request) (r : Request)
    (hp : mn.pending = pre ++ r :: post) (hr : r.dest = ip.ipSrc ∧ r.port = ntohs udp.uhDport)
    (hpre : ∀ x ∈ pre, ¬ (x.dest = ip.ipSrc ∧ x.port = ntohs udp.uhDport))
    (hid : rep.identification.toUInt32 = r.id) :
    RegNode.push node mn (sealedPacket ip udp rep.toBytes a) =
      if rep.code = 0 ∨ rep.code = 1 then
        if ip.ipSrc ≠ mn.gateway then
          ({ node with timer := true },
            { RegNode.register mn r rep with pending := pre ++ post }, [.kill])
        else ({ node with timer := false }, { mn with pending := pre ++ post }, [.kill])
      else (node, { mn with pending := pre ++ post }, [.kill]) := by
  -- the split is the one that the search finds, and erasing closes it
  have hfalse : ∀ x ∈ pre, RegNode.answers ip udp x = false := by
    intro x hx
    rw [← Bool.not_eq_true, RegNode.answers_iff]
    exact hpre x hx
  have hm : firstMatch (RegNode.answers ip udp) mn.pending = some (pre.length, r) := by
    rw [hp]
    exact firstMatch_append _ pre post r ((RegNode.answers_iff ip udp r).mpr hr) hfalse
  have herase : mn.pending.eraseIdx pre.length = pre ++ post := by
    rw [hp, eraseIdx_split]
  rw [RegNode.push_reply node mn ip udp rep a hl, hm]
  dsimp only
  rw [if_neg (not_not_intro hid), herase]

end MobileIP
