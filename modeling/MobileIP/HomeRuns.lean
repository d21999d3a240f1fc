import MobileIP.Integrity
import MobileIP.Bindings
import MobileIP.Tunnel
import MobileIP.PendingRequests

/-! What the home agent does with one request, and what the bindings that whole sequences of
requests leave behind mean for the packets that it forwards. -/
namespace MobileIP

open LittleEndian VectorSearch

namespace RegRep

/-- The reply `p` to the request in `q`, as the receiver reads it: from the destination of the
request to its source, with the verdict and the fields of the request. -/
structure Replies (verdict : ℕ) (q p : Packet) : Prop where
  ipSrc : (ClickIp.ofBytes p.data).ipSrc = (ClickIp.ofBytes q.data).ipDst
  ipDst : (ClickIp.ofBytes p.data).ipDst = (ClickIp.ofBytes q.data).ipSrc
  sport : (ClickUdp.ofBytes (p.data.drop sizeofClickIp)).uhSport =
    (ClickUdp.ofBytes (q.data.drop sizeofClickIp)).uhDport
  dport : (ClickUdp.ofBytes (p.data.drop sizeofClickIp)).uhDport =
    (ClickUdp.ofBytes (q.data.drop sizeofClickIp)).uhSport
  type : (RegNode.reph p).type = 3
  code : (RegNode.reph p).code.toNat = verdict
  lifetime : (RegNode.reph p).lifetime = (request q).lifetime
  homeAddress : (RegNode.reph p).homeAddress = (request q).homeAddress
  homeAgent : (RegNode.reph p).homeAgent = (request q).homeAgent
  identification : (RegNode.reph p).identification = (request q).identification

theorem replies_replyPacket (verdict : ℕ) (hv : verdict < 256) (q : Packet) :
    Replies verdict q (replyPacket verdict q) := by
  let rip := ClickIp.ofBytes q.data
  let rudp := ClickUdp.ofBytes (q.data.drop sizeofClickIp)
  have hip : ClickIp.ofBytes (replyPacket verdict q).data = replyIp rip := by
    rw [replyPacket_eq, ip_sealedPacket]
  have hudp : ClickUdp.ofBytes ((replyPacket verdict q).data.drop sizeofClickIp) =
      (rawUdp rudp).withSum (replyIp rip) (replyHeader verdict (request q)).toBytes := by
    rw [replyPacket_eq, udp_sealedPacket]
  have hrep : RegNode.reph (replyPacket verdict q) = replyHeader verdict (request q) := by
    rw [RegNode.reph, replyPacket_eq, payload_sealedPacket, RegrepH.ofBytes_only]
  have hcode : (UInt8.ofNat verdict).toNat = verdict := by
    rw [UInt8.toNat_ofNat']
    omega
  constructor
  · rw [hip]
    rfl
  · rw [hip]
    rfl
  · rw [hudp]
    rfl
  · rw [hudp]
    rfl
  · rw [hrep]
    rfl
  · rw [hrep]
    exact hcode
  · rw [hrep]
    rfl
  · rw [hrep]
    rfl
  · rw [hrep]
    rfl
  · rw [hrep]
    rfl

/-- The bindings after a request with the verdict given: those of before, those of other nodes,
or one more. -/
def bindingsAfter (verdict : ℕ) (req : RegreqH) (old new : List MobileInfo) : Prop :=
  if verdict ≠ 0 ∧ verdict ≠ 1 then new = old
  else if req.homeAddress = req.careOfAddress then
    new = old.filter (fun mi => mi.address ≠ req.homeAddress)
  else ∃ mi : MobileInfo, new = old ++ [mi] ∧ mi.address = req.homeAddress ∧
    mi.careOfAddress = req.careOfAddress ∧ mi.identification = req.identification

theorem bindingsAfter_push (ha : HA) (q : Packet) (ht : (request q).type = 1) :
    bindingsAfter (checkAcceptable ha q) (request q) ha.mobilityBindings
      (push ha q).1.mobilityBindings := by
  rw [push_fst]
  unfold bindingsAfter
  by_cases hden : checkAcceptable ha q ≠ 0 ∧ checkAcceptable ha q ≠ 1
  · have hacc : ¬ accepts ha q := fun h => h.2.elim hden.1 hden.2
    rw [if_pos hden, if_neg hacc]
  · have hacc : accepts ha q := by
      refine ⟨ht, ?_⟩
      by_cases h0 : checkAcceptable ha q = 0
      · exact Or.inl h0
      · exact Or.inr (not_not.mp (fun h1 => hden ⟨h0, h1⟩))
    rw [if_neg hden, if_pos hacc]
    unfold updateBindings
    by_cases hco : (request q).homeAddress = (request q).careOfAddress
    · rw [if_pos hco, if_pos hco]
      exact eraseBindings_eq_filter _ _
    · rw [if_neg hco, if_neg hco]
      exact ⟨newBinding (request q), rfl, rfl, rfl, rfl⟩

end RegRep

/-- The home agent processes requests and nothing else. A request gets exactly one reply, on
output 0 if its home address is its care-of address, and the bindings follow the verdict that
the reply carries. -/
theorem request_processed (ha : HA) (q : Packet) :
    let req := RegRep.request q
    let verdict := RegRep.checkAcceptable ha q
    if req.type = 1 then
      (∃ p, (RegRep.push ha q).2 =
          [.emit (if req.homeAddress = req.careOfAddress then 0 else 1) p, .kill] ∧
        RegRep.Replies verdict q p) ∧
      RegRep.bindingsAfter verdict req ha.mobilityBindings (RegRep.push ha q).1.mobilityBindings
    else RegRep.push ha q = (ha, [.kill]) := by
  intro req verdict
  by_cases ht : req.type = 1
  · rw [if_pos ht, RegRep.push_actions, if_pos ht]
    exact ⟨⟨_, rfl, RegRep.replies_replyPacket _ (RegRep.checkAcceptable_lt ha q) q⟩,
      RegRep.bindingsAfter_push ha q ht⟩
  · have hacc : ¬ RegRep.accepts ha q := fun h => ht h.1
    rw [if_neg ht]
    apply Prod.ext
    · rw [RegRep.push_fst, if_neg hacc]
    · rw [RegRep.push_actions, if_neg ht]

/-- No node is bound to its own address. -/
def HA.NoLoop (ha : HA) : Prop := ∀ mi ∈ ha.mobilityBindings, mi.careOfAddress ≠ mi.address

theorem HA.noLoop_push (ha : HA) (q : Packet) (h : ha.NoLoop) : (RegRep.push ha q).1.NoLoop := by
  rw [RegRep.push_fst]
  split_ifs
  · unfold RegRep.updateBindings
    split_ifs with hco
    · -- erasing leaves entries that were there
      intro mi hmi
      dsimp only at hmi
      rw [RegRep.eraseBindings_eq_filter] at hmi
      exact h mi (List.mem_filter.mp hmi).1
    · intro mi hmi
      rcases List.mem_append.mp hmi with hold | hnew
      · exact h mi hold
      · -- a request for the node's own address erases, so this one is for another
        rw [List.mem_singleton.mp hnew]
        exact fun heq => hco heq.symm
  · exact h

theorem HA.noLoop_run (a : IPAddress) (qs : List Packet) : (RegRep.run ⟨a, []⟩ qs).NoLoop := by
  apply Runs.history_invariant RegRep.push ⟨a, []⟩ (fun _ _ ha => ha.NoLoop)
  · intro mi hmi
    cases hmi
  · intro qs q h
    exact HA.noLoop_push _ q h

/-- The first care-of address of a node is that of a binding of the node. -/
theorem HA.mem_careOf (ha : HA) (home co : IPAddress) (h : co ∈ ha.careOf home) :
    ∃ mi ∈ ha.mobilityBindings, mi.address = home ∧ mi.careOfAddress = co := by
  obtain ⟨mi, hmi, rfl⟩ := List.mem_map.mp h
  obtain ⟨hmem, hhome⟩ := List.mem_filter.mp hmi
  exact ⟨mi, hmem, by simpa using hhome, rfl⟩

/-- Whatever requests the home agent has processed, a packet that its classifier directs to the
tunnel is tunnelled to the care-of address of a binding for its destination, which is not the
destination itself; and a packet that it directs to the network has no binding. -/
theorem tunnel_agrees (a : IPAddress) (qs : List Packet) (srcIp : IPAddress) (p : Packet) :
    let ha := RegRep.run ⟨a, []⟩ qs
    let dst := (ClickIp.ofBytes p.data).ipDst
    (HA.push ha p = [.forward 1 p] ∧
      ∃ mi ∈ ha.mobilityBindings, mi.address = dst ∧ mi.careOfAddress ≠ dst ∧
        ∃ out, Encapsulator.push ha srcIp p = [.kill, .emit 0 out] ∧
          (ClickIp.ofBytes out.data).ipDst = mi.careOfAddress ∧
          out.dstIpAnno = mi.careOfAddress) ∨
    (HA.push ha p = [.forward 0 p] ∧ ∀ mi ∈ ha.mobilityBindings, mi.address ≠ dst) := by
  intro ha dst
  have hpush := HA.push_eq ha p
  have hdest := Encapsulator.getDestinationIp_eq ha dst
  by_cases hnil : ha.careOf dst = []
  · right
    rw [if_pos hnil] at hpush
    exact ⟨hpush, (HA.careOf_eq_nil_iff ha dst).mp hnil⟩
  · left
    rw [if_neg hnil] at hpush
    refine ⟨hpush, ?_⟩
    -- both searches stop at the first binding of the destination
    obtain ⟨co, rest, hco⟩ := List.exists_cons_of_ne_nil hnil
    obtain ⟨mi, hmi, hhome, hcare⟩ := HA.mem_careOf ha dst co (by simp [hco])
    rw [hco, List.headD_cons] at hdest
    refine ⟨mi, hmi, hhome, ?_, Encapsulator.encapsulate ha srcIp p, rfl, ?_, ?_⟩
    · rw [← hhome]
      exact HA.noLoop_run a qs mi hmi
    · rw [Encapsulator.ofBytes_encapsulate, hcare]
      exact hdest
    · rw [hcare]
      exact hdest

end MobileIP
