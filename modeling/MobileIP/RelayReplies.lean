import MobileIP.RelayRuns

/-! How the foreign agent treats one reply: which pending request it takes it for, which
port the relayed reply goes to, and what a deregistration does to the registrations. -/
namespace MobileIP

open LittleEndian VectorSearch

namespace Relay

variable (relay : Relay) (fa : FA) (p : Packet)

theorem relayRep_none (hsum : badUdpChecksum (iph p) = false)
    (hm : firstMatch (fun e : VEntry => e.ipSrc == (reph p).homeAddress) fa.requests = none) :
    relayRep relay fa p = (fa, [.kill]) := by
  unfold relayRep
  rw [hsum, hm]
  rfl

theorem relayRep_some (hsum : badUdpChecksum (iph p) = false) (i : ℕ) (entry : VEntry)
    (hm : firstMatch (fun e : VEntry => e.ipSrc == (reph p).homeAddress) fa.requests =
      some (i, entry)) :
    relayRep relay fa p =
      ({ fa with
          registrations := updateRegistrations fa.registrations entry (reph p)
          requests := fa.requests.eraseIdx i },
        [.forward 0 (relayedReply relay p (staleEntry fa.requests i entry).udpSrc)]) := by
  unfold relayRep
  rw [hsum, hm]
  rfl

/-- The reply `rep` answers the pending request `e`: same mobile node, same identification. -/
def Answers (rep : RegrepH) (e : VEntry) : Prop :=
  e.ipSrc = rep.homeAddress ∧ e.id = rep.identification

instance (rep : RegrepH) (e : VEntry) : Decidable (Answers rep e) :=
  inferInstanceAs (Decidable (_ ∧ _))

/-- `relayRep` matches replies by identification: it removes a request that the reply
answers and uses it for the registration, and drops a reply that answers none. -/
def MatchesById : Prop :=
  if ∃ e ∈ fa.requests, Answers (reph p) e then
    ∃ i e, fa.requests[i]? = some e ∧ Answers (reph p) e ∧
      (relayRep relay fa p).1 =
        { fa with
          registrations := updateRegistrations fa.registrations e (reph p)
          requests := fa.requests.eraseIdx i }
  else relayRep relay fa p = (fa, [.kill])

/-- The request that is removed for a reply is the first one of its mobile node, and
removing another one would leave another list behind. -/
theorem MatchesById.id_eq (hsum : badUdpChecksum (iph p) = false) (h : MatchesById relay fa p)
    (i : ℕ) (e : VEntry)
    (hm : firstMatch (fun e : VEntry => e.ipSrc == (reph p).homeAddress) fa.requests = some (i, e)) :
    e.id = (reph p).identification := by
  have hget := (firstMatch_getElem? _ fa.requests i e hm).1
  unfold MatchesById at h
  rw [relayRep_some relay fa p hsum i e hm] at h
  split_ifs at h with hex
  · obtain ⟨j, e', hget', hans, heq⟩ := h
    have herase : fa.requests.eraseIdx i = fa.requests.eraseIdx j := congrArg FA.requests heq
    rw [eq_of_eraseIdx_eq fa.requests i j e e' hget hget' herase]
    exact hans.2
  · exact absurd (congrArg Prod.snd h) (by simp)

/-- The foreign agent takes a reply for the first pending request of its mobile node, so it
matches by identification exactly if that request has the identification of the reply. -/
theorem relayRep_matches_by_id_iff (hsum : badUdpChecksum (iph p) = false) :
    MatchesById relay fa p ↔
      ∀ i e, firstMatch (fun e : VEntry => e.ipSrc == (reph p).homeAddress) fa.requests =
        some (i, e) → e.id = (reph p).identification := by
  constructor
  · exact fun h i e hm => h.id_eq relay fa p hsum i e hm
  intro h
  unfold MatchesById
  cases hm : firstMatch (fun e : VEntry => e.ipSrc == (reph p).homeAddress) fa.requests with
  | none =>
    have hno : ¬ ∃ e ∈ fa.requests, Answers (reph p) e := by
      rintro ⟨e, he, hans⟩
      have hne := (firstMatch_eq_none_iff _ fa.requests).mp hm e he
      exact ne_of_beq_false hne hans.1
    rw [if_neg hno]
    exact relayRep_none relay fa p hsum hm
  | some r =>
    obtain ⟨i, e⟩ := r
    obtain ⟨hget, he⟩ := firstMatch_getElem? _ fa.requests i e hm
    have hans : Answers (reph p) e := ⟨beq_iff_eq.mp he, h i e hm⟩
    have hmem : e ∈ fa.requests := List.mem_of_getElem? hget
    rw [if_pos ⟨e, hmem, hans⟩, relayRep_some relay fa p hsum i e hm]
    exact ⟨i, e, hget, hans, rfl⟩

end Relay

/-- Two requests of one mobile node are pending, sent from the ports 1 and 2. -/
def Deployment.twoPending : FA :=
  { foreignAgent with
    requests := [Relay.pendingEntry (requestFrame mobileNodeAddress ⟨1, 1⟩),
      Relay.pendingEntry (requestFrame mobileNodeAddress ⟨2, 2⟩)] }

theorem Relay.matches_first_request :
    Relay.MatchesById Deployment.relay Deployment.twoPending
      (Relay.replyFrame Deployment.mobileNodeAddress ⟨1, 1⟩) := by
  refine (Relay.relayRep_matches_by_id_iff _ _ _ (by decide +kernel)).mpr ?_
  intro i e hm
  have hfirst : firstMatch (fun e : VEntry => e.ipSrc ==
      (Relay.reph (Relay.replyFrame Deployment.mobileNodeAddress ⟨1, 1⟩)).homeAddress)
      Deployment.twoPending.requests =
      some (0, Relay.pendingEntry (Deployment.requestFrame Deployment.mobileNodeAddress ⟨1, 1⟩)) := by
    decide +kernel
  obtain ⟨-, rfl⟩ := Prod.mk.inj (Option.some.inj (hm.symm.trans hfirst))
  decide +kernel

/-- The reply to the second request is taken for the first one. -/
theorem Relay.mismatches_second_request :
    ¬ Relay.MatchesById Deployment.relay Deployment.twoPending
      (Relay.replyFrame Deployment.mobileNodeAddress ⟨2, 2⟩) := by
  intro h
  have hid := h.id_eq Deployment.relay Deployment.twoPending _ (by decide +kernel) 0
    (Relay.pendingEntry (Deployment.requestFrame Deployment.mobileNodeAddress ⟨1, 1⟩))
    (by decide +kernel)
  exact absurd hid (by decide +kernel)

namespace Relay

variable (relay : Relay) (fa : FA) (p : Packet)

/-- The relayed reply goes to the port of the pending request that was removed for it. -/
def RepliesToPort : Prop :=
  ∃ i e d, fa.requests[i]? = some e ∧ e.ipSrc = (reph p).homeAddress ∧
    (relayRep relay fa p).1.requests = fa.requests.eraseIdx i ∧
    outputs 0 (relayRep relay fa p).2 = [d] ∧
    ntohs (ClickUdp.ofBytes (d.data.drop sizeofClickIp)).uhDport = e.udpSrc

theorem outputs_relayRep_some (hcall : callsRelayRep p) (hsum : badUdpChecksum (iph p) = false)
    (i : ℕ) (e : VEntry)
    (hm : firstMatch (fun e : VEntry => e.ipSrc == (reph p).homeAddress) fa.requests = some (i, e)) :
    ∃ d, outputs 0 (relayRep relay fa p).2 = [d] ∧
      ntohs (ClickUdp.ofBytes (d.data.drop sizeofClickIp)).uhDport =
        (staleEntry fa.requests i e).udpSrc := by
  refine ⟨relayedReply relay p (staleEntry fa.requests i e).udpSrc, ?_, ?_⟩
  · rw [relayRep_some relay fa p hsum i e hm]
    rfl
  · rw [relayedReply_data relay p _ hcall, ofBytes_drop_sealedData]
    exact ntohs_htons _

theorem RepliesToPort.stale_eq (hcall : callsRelayRep p) (hsum : badUdpChecksum (iph p) = false)
    (h : RepliesToPort relay fa p) (i : ℕ) (e : VEntry)
    (hm : firstMatch (fun e : VEntry => e.ipSrc == (reph p).homeAddress) fa.requests = some (i, e)) :
    (staleEntry fa.requests i e).udpSrc = e.udpSrc := by
  have hget := (firstMatch_getElem? _ fa.requests i e hm).1
  obtain ⟨d, hout, hport⟩ := outputs_relayRep_some relay fa p hcall hsum i e hm
  obtain ⟨j, e', d', hget', -, herase, hout', hport'⟩ := h
  rw [relayRep_some relay fa p hsum i e hm] at herase
  have hd : d' = d := List.singleton_inj.mp (hout'.symm.trans hout)
  have he : e = e' := eq_of_eraseIdx_eq fa.requests i j e e' hget hget' herase
  rw [← hport, ← hd, hport', he]

theorem staleEntry_port_iff (requests : List VEntry) (i : ℕ) (e : VEntry) :
    (staleEntry requests i e).udpSrc = e.udpSrc ↔
      ∀ next, requests[i+1]? = some next → next.udpSrc = e.udpSrc := by
  rw [staleEntry, List.getD_eq_getElem?_getD]
  cases requests[i+1]? with
  | none => simp
  | some next => simp

/-- A mobile node with a pending request has a first one. -/
theorem exists_first_request (rep : RegrepH) (requests : List VEntry)
    (h : ∃ e ∈ requests, e.ipSrc = rep.homeAddress) :
    ∃ i e, firstMatch (fun e : VEntry => e.ipSrc == rep.homeAddress) requests = some (i, e) := by
  obtain ⟨e, he, hsrc⟩ := h
  exact exists_firstMatch _ requests e he (beq_iff_eq.mpr hsrc)

/-- The port is read from the slot of the erased entry, where the entry behind it stands
by then. It is the right one exactly if there is no entry behind it, or one with the same
port. -/
theorem relayRep_port_iff (hcall : callsRelayRep p) (hsum : badUdpChecksum (iph p) = false)
    (hpend : ∃ e ∈ fa.requests, e.ipSrc = (reph p).homeAddress) :
    RepliesToPort relay fa p ↔
      ∀ i e next, firstMatch (fun e : VEntry => e.ipSrc == (reph p).homeAddress) fa.requests =
        some (i, e) → fa.requests[i+1]? = some next → next.udpSrc = e.udpSrc := by
  constructor
  · intro h i e next hm hnext
    have hstale := h.stale_eq relay fa p hcall hsum i e hm
    exact (staleEntry_port_iff fa.requests i e).mp hstale next hnext
  · intro h
    obtain ⟨i, e, hm⟩ := exists_first_request (reph p) fa.requests hpend
    obtain ⟨hget, hsrc⟩ := firstMatch_getElem? _ fa.requests i e hm
    obtain ⟨d, hout, hport⟩ := outputs_relayRep_some relay fa p hcall hsum i e hm
    have hstale := (staleEntry_port_iff fa.requests i e).mpr (fun next hnext => h i e next hm hnext)
    refine ⟨i, e, d, hget, beq_iff_eq.mp hsrc, ?_, hout, hport.trans hstale⟩
    rw [relayRep_some relay fa p hsum i e hm]

/-- A request that is pending alone is answered at its port. -/
theorem replies_to_lone_request :
    RepliesToPort Deployment.relay
      { Deployment.foreignAgent with
        requests := [pendingEntry (Deployment.requestFrame Deployment.mobileNodeAddress ⟨1, 1⟩)] }
      (replyFrame Deployment.mobileNodeAddress ⟨1, 1⟩) := by
  refine (relayRep_port_iff _ _ _ (by decide +kernel) (by decide +kernel) (by decide +kernel)).mpr ?_
  intro i e next hm hnext
  have hi : i = 0 := by
    obtain ⟨pre, post, hl, hlen, -, -⟩ := firstMatch_split _ _ i e hm
    have hlength := congrArg List.length hl
    simp only [List.length_append, List.length_cons, List.length_nil] at hlength
    omega
  rw [hi] at hnext
  exact absurd hnext (by simp)

/-- The reply to the first of two pending requests goes to the port of the second. -/
theorem replies_to_next_request :
    ¬ RepliesToPort Deployment.relay Deployment.twoPending
      (replyFrame Deployment.mobileNodeAddress ⟨1, 1⟩) := by
  intro h
  have hport := h.stale_eq Deployment.relay Deployment.twoPending _ (by decide +kernel)
    (by decide +kernel) 0
    (pendingEntry (Deployment.requestFrame Deployment.mobileNodeAddress ⟨1, 1⟩)) (by decide +kernel)
  exact absurd hport (by decide +kernel)

/-- A deregistration removes the registrations of its own node and no other exactly if the
node has one registration, or nobody has. -/
theorem deregistration_removes_own_iff (hsum : badUdpChecksum (iph p) = false)
    (hpend : ∃ e ∈ fa.requests, e.ipSrc = (reph p).homeAddress)
    (hcode : (reph p).code = 0 ∨ (reph p).code = 1) (hlife : (reph p).lifetime = 0) :
    (relayRep relay fa p).1.registrations =
        fa.registrations.filter (fun reg => reg.1 != (reph p).homeAddress) ↔
      fa.registrations.countP (fun reg => reg.1 == (reph p).homeAddress) = 1 ∨
        fa.registrations = [] := by
  obtain ⟨i, e, hm⟩ := exists_first_request (reph p) fa.requests hpend
  have hzero : ¬ ntohs (reph p).lifetime ≠ 0 := by
    rw [hlife]
    decide
  rw [relayRep_some relay fa p hsum i e hm]
  dsimp only
  rw [updateRegistrations, if_pos hcode]
  dsimp only
  rw [if_neg hzero]
  exact eraseIdx_lastIndex_eq_filter_iff _ fa.registrations

end Relay

namespace Deployment

/-- The request of a mobile node to which an advertisement offered the lifetime 0. -/
def zeroRequestFrame : Packet :=
  (RegReq.makePacket info ⟨1, 1⟩ foreignAgentPrivateAddress 0 foreignAgentPublicAddress).2.frame
    (default : Ether).bytes

def zeroReplyFrame : Packet :=
  (RegRep.replyPacket 0 (Relay.relayedRequest foreignAgent 0 zeroRequestFrame).strip).frame
    (default : Ether).bytes

/-- That request is pending, and the nodes in `homes` are registered. -/
def visited (homes : List IPAddress) : FA :=
  { foreignAgent with
    requests := [Relay.pendingEntry zeroRequestFrame]
    registrations := homes.map (fun home =>
      (home, Relay.pendingEntry (requestFrame home ⟨2, 2⟩))) }

end Deployment

theorem Relay.deregistration_removes_own_deployed :
    let fa := Deployment.visited [Deployment.ipv4 192 168 2 2, Deployment.mobileNodeAddress]
    (Relay.relayRep Deployment.relay fa Deployment.zeroReplyFrame).1.registrations =
      fa.registrations.filter
        (fun reg => reg.1 != (Relay.reph Deployment.zeroReplyFrame).homeAddress) :=
  (Relay.deregistration_removes_own_iff _ _ _ (by decide +kernel) (by decide +kernel)
    (by decide +kernel) (by decide +kernel)).mpr (Or.inl (by decide +kernel))

/-- The deregistration of a node that is not registered removes another node. -/
theorem Relay.deregistration_evicts_other :
    let fa := Deployment.visited [Deployment.ipv4 192 168 2 2]
    ¬ (Relay.relayRep Deployment.relay fa Deployment.zeroReplyFrame).1.registrations =
      fa.registrations.filter
        (fun reg => reg.1 != (Relay.reph Deployment.zeroReplyFrame).homeAddress) := by
  decide +kernel

end MobileIP
