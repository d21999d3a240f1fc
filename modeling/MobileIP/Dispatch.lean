import MobileIP.RelayReplies

/-! Which packets the foreign agent takes for registration messages. `Relay` tells them apart
by their size: the test of the type guards nothing but a line on the console. -/
namespace MobileIP

open LittleEndian VectorSearch

namespace Relay

/-- The UDP payload of an IP packet, as the header length and the UDP length delimit it. -/
def udpPayload (d : Bytes) : Option Bytes :=
  let ip := ClickIp.ofBytes d
  let hlen := 4*ip.ipHl.toNat
  let ulen := (ntohs (ClickUdp.ofBytes (d.drop hlen)).uhUlen).toNat
  if ip.ipP = 17 ∧ sizeofClickIp ≤ hlen ∧ sizeofClickUdp ≤ ulen ∧ hlen+ulen ≤ d.length then
    some ((d.drop (hlen+sizeofClickUdp)).take (ulen-sizeofClickUdp))
  else none

/-- A registration request: a UDP message whose payload has its size and its type. -/
def isRequest (p : Packet) : Prop :=
  ∃ m ∈ udpPayload (iph p), m.length = sizeofRegreqH ∧ (RegreqH.ofBytes m).type = 1

/-- A registration reply. -/
def isReply (p : Packet) : Prop :=
  ∃ m ∈ udpPayload (iph p), m.length = sizeofRegrepH ∧ (RegrepH.ofBytes m).type = 3

instance (p : Packet) : Decidable (isRequest p) :=
  inferInstanceAs (Decidable (∃ m ∈ udpPayload (iph p), _ ∧ _))

instance (p : Packet) : Decidable (isReply p) :=
  inferInstanceAs (Decidable (∃ m ∈ udpPayload (iph p), _ ∧ _))

/-- The agent does not pass on a request with these flags: it has as many registrations as it may,
or the flags ask for what it does not offer. -/
def refuses (relay : Relay) (fa : FA) (flags : UInt8) : Prop :=
  (-1 < relay.registrationLimit ∧ relay.registrationLimit ≤ fa.registrations.length) ∨
    flags &&& 1 = 1 ∨ (flags >>> 2) &&& 1 = 1 ∨ (flags >>> 3) &&& 1 = 1 ∨ (flags >>> 4) &&& 1 = 1

instance (relay : Relay) (fa : FA) (flags : UInt8) : Decidable (refuses relay fa flags) :=
  inferInstanceAs (Decidable (_ ∨ _))

theorem rejectCode_eq_none_iff (relay : Relay) (fa : FA) (flags : UInt8) :
    rejectCode relay fa flags = none ↔ ¬ refuses relay fa flags := by
  unfold rejectCode refuses
  dsimp only
  split_ifs with hlast hfirst hlimit
  · exact iff_of_false (by simp) (not_not_intro (Or.inr (Or.inr (Or.inr hlast))))
  · exact iff_of_false (by simp) (not_not_intro (Or.inr (by tauto)))
  · exact iff_of_false (by simp) (not_not_intro (Or.inl hlimit))
  · exact iff_of_true rfl (by tauto)

variable (relay : Relay) (fa : FA) (rand : ℕ) (p : Packet)

/-- The relay acts on registration messages only. -/
structure ActsOnRegistrations : Prop where
  -- what only a request may bring about
  request : (∃ e, (push relay fa rand p).1.requests = fa.requests ++ [e]) ∨
    outputs 1 (push relay fa rand p).2 ≠ [] → isRequest p
  -- what only a reply may, but for the rejection of a request
  reply : ¬ fa.requests <+: (push relay fa rand p).1.requests ∨
    (push relay fa rand p).1.registrations ≠ fa.registrations ∨
    (outputs 0 (push relay fa rand p).2 ≠ [] ∧ ¬ isRequest p) → isReply p
  other : ¬ isRequest p → ¬ isReply p →
    (push relay fa rand p).1 = fa ∧ ∀ port, outputs port (push relay fa rand p).2 = []

/-- A step that changes and sends nothing is allowed for every packet. -/
theorem actsOnRegistrations_of_silent (hfa : (push relay fa rand p).1 = fa)
    (hout : ∀ port, outputs port (push relay fa rand p).2 = []) :
    ActsOnRegistrations relay fa rand p where
  request := by
    rintro (⟨e, he⟩ | h)
    · rw [hfa] at he
      have hlen := congrArg List.length he
      simp at hlen
    · exact absurd (hout 1) h
  reply := by
    rintro (h | h | ⟨h, -⟩)
    · rw [hfa] at h
      exact absurd (List.prefix_refl _) h
    · rw [hfa] at h
      exact absurd rfl h
    · exact absurd (hout 0) h
  other := fun _ _ => ⟨hfa, hout⟩

theorem actsOnRegistrations_of_dropped (h : push relay fa rand p = (fa, [.kill])) :
    ActsOnRegistrations relay fa rand p := by
  apply actsOnRegistrations_of_silent
  · rw [h]
  · intro port
    rw [h]
    simp

theorem push_of_callsRelayReq (h : callsRelayReq p) :
    push relay fa rand p = relayReq relay fa rand p := by
  unfold push
  dsimp only
  rw [if_neg h.1, if_pos h.2]

theorem push_of_callsRelayRep (h : callsRelayRep p) : push relay fa rand p = relayRep relay fa p := by
  have hne : ¬ p.data.length-sizeofClickEther = sizeofClickIp+sizeofClickUdp+sizeofRegreqH := by
    rw [h.2]
    decide
  unfold push
  dsimp only
  rw [if_neg h.1, if_neg hne, if_pos h.2]

theorem push_of_other_size (hip : (ip p).ipP ≠ 1) (hreq : ¬ callsRelayReq p)
    (hrep : ¬ callsRelayRep p) : push relay fa rand p = (fa, []) := by
  unfold push
  dsimp only
  rw [if_neg hip, if_neg (fun h => hreq ⟨hip, h⟩), if_neg (fun h => hrep ⟨hip, h⟩)]

theorem not_callsRelayRep (h : callsRelayReq p) : ¬ callsRelayRep p := by
  intro hrep
  have heq := h.2.symm.trans hrep.2
  exact absurd heq (by decide)

/-- In a packet of the size of a request, the relay finds the payload of one where it looks for
it only if the headers say so. -/
theorem isRequest_iff (h : callsRelayReq p) :
    isRequest p ↔ (ip p).ipP = 17 ∧ (ip p).ipHl = 5 ∧ ntohs (udp p).uhUlen = 32 ∧
      (reqh p).type = 1 := by
  have hlen : (iph p).length = 52 := by
    rw [iph, List.length_drop]
    exact h.2
  have hpayload : ((iph p).drop 28).take 24 = payload p := by
    apply List.take_of_length_le
    rw [List.length_drop, hlen]
  have hstart : (iph p).drop (4*5) = (iph p).drop sizeofClickIp := rfl
  constructor
  · rintro ⟨m, hm, hsize, htype⟩
    simp only [udpPayload, Option.mem_def, Option.ite_none_right_eq_some, Option.some.injEq] at hm
    obtain ⟨⟨hproto, hmin, -, hfits⟩, rfl⟩ := hm
    rw [List.length_take, List.length_drop, hlen] at hsize
    -- no room is left for options
    simp only [sizeofClickIp, sizeofClickUdp, sizeofRegreqH] at hmin hsize
    rw [hlen] at hfits
    have hhl : (ClickIp.ofBytes (iph p)).ipHl.toNat = 5 := by omega
    rw [hhl, hstart] at hsize htype
    have hulen : (ntohs (ClickUdp.ofBytes ((iph p).drop sizeofClickIp)).uhUlen).toNat = 32 := by
      rw [hhl, hstart] at hfits
      omega
    rw [hulen] at htype
    refine ⟨hproto, BitVec.eq_of_toNat_eq hhl, UInt16.toNat_inj.mp hulen, ?_⟩
    rw [reqh, ← hpayload]
    exact htype
  · rintro ⟨hproto, hhl, hulen, htype⟩
    have hhl' : (ClickIp.ofBytes (iph p)).ipHl.toNat = 5 := by
      change (ip p).ipHl.toNat = 5
      rw [hhl]
      rfl
    have hulen' : (ntohs (ClickUdp.ofBytes ((iph p).drop sizeofClickIp)).uhUlen).toNat = 32 := by
      change (ntohs (udp p).uhUlen).toNat = 32
      rw [hulen]
      rfl
    have hm : udpPayload (iph p) = some (payload p) := by
      unfold udpPayload
      dsimp only
      rw [hhl', hstart, hulen', hlen, if_pos ⟨hproto, by decide⟩, ← hpayload]
      rfl
    refine ⟨payload p, hm, ?_, htype⟩
    rw [payload, List.length_drop, hlen]
    rfl

theorem relayReq_frame :
    fa.requests <+: (relayReq relay fa rand p).1.requests ∧
      (relayReq relay fa rand p).1.registrations = fa.registrations := by
  unfold relayReq
  split_ifs
  · exact ⟨List.prefix_refl _, rfl⟩
  · split
    · exact ⟨List.prefix_refl _, rfl⟩
    · exact ⟨List.prefix_append _ _, rfl⟩

/-- A packet of the size of a request with a good checksum is answered or handed on. -/
theorem relayReq_cases (hsum : badUdpChecksum (iph p) = false) :
    (refuses relay fa (reqh p).flags ∧ (relayReq relay fa rand p).1 = fa ∧
      outputs 1 (relayReq relay fa rand p).2 = [] ∧ outputs 0 (relayReq relay fa rand p).2 ≠ []) ∨
    (¬ refuses relay fa (reqh p).flags ∧ outputs 1 (relayReq relay fa rand p).2 ≠ []) := by
  unfold relayReq
  rw [hsum, if_neg Bool.false_ne_true]
  cases hc : rejectCode relay fa (reqh p).flags with
  | some code =>
    have hrefuses : refuses relay fa (reqh p).flags := by
      by_contra hn
      rw [(rejectCode_eq_none_iff relay fa _).mpr hn] at hc
      cases hc
    exact Or.inl ⟨hrefuses, rfl, by simp, by simp⟩
  | none => exact Or.inr ⟨(rejectCode_eq_none_iff relay fa _).mp hc, by simp⟩

theorem actsOnRegistrations_request_iff (h : callsRelayReq p) :
    ActsOnRegistrations relay fa rand p ↔
      badUdpChecksum (iph p) = true ∨ isRequest p ∨
        (isReply p ∧ refuses relay fa (reqh p).flags) := by
  have hpush := push_of_callsRelayReq relay fa rand p h
  obtain ⟨hpre, hregs⟩ := relayReq_frame relay fa rand p
  cases hsum : badUdpChecksum (iph p) with
  | true =>
    have hdrop : relayReq relay fa rand p = (fa, [.kill]) := by
      unfold relayReq
      rw [if_pos hsum]
    exact iff_of_true (actsOnRegistrations_of_dropped relay fa rand p (hpush.trans hdrop))
      (Or.inl rfl)
  | false =>
    constructor
    · intro hacts
      right
      by_cases hrequest : isRequest p
      · exact Or.inl hrequest
      · rcases relayReq_cases relay fa rand p hsum with ⟨hrefuses, -, -, hout⟩ | ⟨-, hout⟩
        · -- the rejection went out on output 0, so the packet must have been a reply
          rw [← hpush] at hout
          exact Or.inr ⟨hacts.reply (Or.inr (Or.inr ⟨hout, hrequest⟩)), hrefuses⟩
        · rw [← hpush] at hout
          exact Or.inl (hacts.request (Or.inr hout))
    · rintro (hbad | hrequest | ⟨hreply, hrefuses⟩)
      · cases hbad
      · rw [← hpush] at hpre hregs
        refine ⟨fun _ => hrequest, ?_, fun hn => absurd hrequest hn⟩
        rintro (hp | hr | ⟨-, hn⟩)
        · exact absurd hpre hp
        · exact absurd hregs hr
        · exact absurd hrequest hn
      · rcases relayReq_cases relay fa rand p hsum with ⟨-, hfa, hout, -⟩ | ⟨hn, -⟩
        · refine ⟨?_, fun _ => hreply, fun _ hn => absurd hreply hn⟩
          rw [hpush, hfa, hout]
          rintro (⟨e, he⟩ | hsent)
          · have hlen := congrArg List.length he
            simp at hlen
          · exact absurd rfl hsent
        · exact absurd hrefuses hn

theorem actsOnRegistrations_reply_iff (h : callsRelayRep p) :
    ActsOnRegistrations relay fa rand p ↔
      badUdpChecksum (iph p) = true ∨ isReply p ∨
        ∀ e ∈ fa.requests, e.ipSrc ≠ (reph p).homeAddress := by
  have hpush := push_of_callsRelayRep relay fa rand p h
  have hdropped : relayRep relay fa p = (fa, [.kill]) → ActsOnRegistrations relay fa rand p :=
    fun hdrop => actsOnRegistrations_of_dropped relay fa rand p (hpush.trans hdrop)
  cases hsum : badUdpChecksum (iph p) with
  | true =>
    have hdrop : relayRep relay fa p = (fa, [.kill]) := by
      unfold relayRep
      rw [if_pos hsum]
    exact iff_of_true (hdropped hdrop) (Or.inl rfl)
  | false =>
    cases hm : firstMatch (fun e : VEntry => e.ipSrc == (reph p).homeAddress) fa.requests with
    | none =>
      have hno : ∀ e ∈ fa.requests, e.ipSrc ≠ (reph p).homeAddress := by
        simpa using (firstMatch_eq_none_iff _ fa.requests).mp hm
      exact iff_of_true (hdropped (relayRep_none relay fa p hsum hm)) (Or.inr (Or.inr hno))
    | some found =>
      obtain ⟨i, entry⟩ := found
      obtain ⟨hget, hentry⟩ := firstMatch_getElem? _ fa.requests i entry hm
      obtain ⟨hi, -⟩ := List.getElem?_eq_some_iff.mp hget
      rw [relayRep_some relay fa p hsum i entry hm] at hpush
      -- the list of pending requests gets shorter
      have hshort : (push relay fa rand p).1.requests.length < fa.requests.length := by
        rw [hpush]
        change (fa.requests.eraseIdx i).length < _
        rw [List.length_eraseIdx_of_lt hi]
        omega
      constructor
      · intro hacts
        have hremoved : ¬ fa.requests <+: (push relay fa rand p).1.requests := by
          intro hpre
          have hle := hpre.length_le
          omega
        exact Or.inr (Or.inl (hacts.reply (Or.inl hremoved)))
      · rintro (hbad | hreply | hno)
        · cases hbad
        · refine ⟨?_, fun _ => hreply, fun _ hn => absurd hreply hn⟩
          rintro (⟨e, he⟩ | hout)
          · have hlen := congrArg List.length he
            rw [List.length_append, List.length_singleton] at hlen
            omega
          · rw [hpush] at hout
            simp at hout
        · exact absurd (beq_iff_eq.mp hentry) (hno entry (List.mem_of_getElem? hget))

end Relay

/-- The relay acts on registration messages only, exactly if a packet of the size of a request
has a bad checksum, or the payload of a request, or that of a reply and is refused; and a packet
of the size of a reply has a bad checksum, the payload of a reply, or no pending request for its
home address. -/
theorem relay_acts_on_registrations_iff (relay : Relay) (fa : FA) (rand : ℕ) (p : Packet)
    (hip : (Relay.ip p).ipP ≠ 1) :
    Relay.ActsOnRegistrations relay fa rand p ↔
      (Relay.callsRelayReq p →
        badUdpChecksum (Relay.iph p) = true ∨ Relay.isRequest p ∨
          (Relay.isReply p ∧ Relay.refuses relay fa (Relay.reqh p).flags)) ∧
      (Relay.callsRelayRep p →
        badUdpChecksum (Relay.iph p) = true ∨ Relay.isReply p ∨
          ∀ e ∈ fa.requests, e.ipSrc ≠ (Relay.reph p).homeAddress) := by
  by_cases hreq : Relay.callsRelayReq p
  · have hrep := Relay.not_callsRelayRep p hreq
    rw [Relay.actsOnRegistrations_request_iff relay fa rand p hreq]
    simp only [hreq, hrep, true_imp_iff, false_imp_iff, and_true]
  · by_cases hrep : Relay.callsRelayRep p
    · rw [Relay.actsOnRegistrations_reply_iff relay fa rand p hrep]
      simp only [hreq, hrep, true_imp_iff, false_imp_iff, true_and]
    · have hpush := Relay.push_of_other_size relay fa rand p hip hreq hrep
      have hacts : Relay.ActsOnRegistrations relay fa rand p := by
        apply Relay.actsOnRegistrations_of_silent
        · rw [hpush]
        · intro port
          rw [hpush]
          rfl
      exact iff_of_true hacts ⟨fun h => absurd h hreq, fun h => absurd h hrep⟩

namespace Deployment

/-- A message of the size of a request, from the mobile node to the port of the foreign agent,
with another type. -/
def typedFrame (type : UInt8) : Packet :=
  (sealedPacket (RegReq.requestIp info foreignAgentPrivateAddress) (RegReq.rawUdp ⟨4711, 1⟩)
    { RegReq.requestHeader info ⟨4711, 1⟩ 100 foreignAgentPublicAddress with type := type }.toBytes
    foreignAgentPrivateAddress).frame (default : Ether).bytes

end Deployment

theorem relay_acts_on_registrations_deployed :
    Relay.ActsOnRegistrations Deployment.relay Deployment.foreignAgent 7 (Deployment.typedFrame 1) := by
  have hip : (Relay.ip (Deployment.typedFrame 1)).ipP ≠ 1 := by decide +kernel
  have hrep : ¬ Relay.callsRelayRep (Deployment.typedFrame 1) := by decide +kernel
  exact (relay_acts_on_registrations_iff Deployment.relay Deployment.foreignAgent 7 _ hip).mpr
    ⟨fun _ => Or.inr (Or.inl (by decide +kernel)), fun h => absurd h hrep⟩

/-- A message of type 2 with the size of a request becomes a pending request and is relayed to
the home agent. -/
theorem relay_acts_on_other_type :
    let p := Deployment.typedFrame 2
    let r := Relay.push Deployment.relay Deployment.foreignAgent 7 p
    (Relay.ip p).ipP = 17 ∧ ¬ Relay.isRequest p ∧ ¬ Relay.isReply p ∧
      r.1.requests.length = 1 ∧ (outputs 1 r.2).length = 1 ∧
      ¬ Relay.ActsOnRegistrations Deployment.relay Deployment.foreignAgent 7 p := by
  intro p r
  have hreq : ¬ Relay.isRequest p := by decide +kernel
  have hrep : ¬ Relay.isReply p := by decide +kernel
  have hlen : r.1.requests.length = 1 := by decide +kernel
  refine ⟨by decide +kernel, hreq, hrep, hlen, by decide +kernel, ?_⟩
  intro hacts
  have hsame := (hacts.other hreq hrep).1
  have hnone : r.1.requests.length = 0 := congrArg (fun fa : FA => fa.requests.length) hsame
  rw [hlen] at hnone
  cases hnone

end MobileIP
