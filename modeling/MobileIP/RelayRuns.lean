import MobileIP.Messages
import MobileIP.Advertisement
import MobileIP.Library.Runs
import Mathlib.Data.Finset.Card

/-! The foreign agent over whole runs, from empty tables: where its registrations come
from, how many answers it gives and how many registrations it holds. -/
namespace MobileIP

open LittleEndian VectorSearch

namespace Relay

def empty (address : IPAddress) : FA := ⟨address, [], []⟩

theorem mem_ageRegistrations (regs : List (IPAddress × VEntry)) (reg : IPAddress × VEntry)
    (h : reg ∈ ageRegistrations regs) :
    ∃ old ∈ regs, old.1 = reg.1 ∧
      reg.2 = { old.2 with remainingLifetime := reg.2.remainingLifetime } := by
  obtain ⟨old, hold, rfl⟩ := List.mem_map.mp h
  refine ⟨old, (List.mem_filter.mp hold).1, rfl, ?_⟩
  dsimp only
  split_ifs <;> rfl

theorem ageRegistrations_keys (regs : List (IPAddress × VEntry)) :
    ((ageRegistrations regs).map Prod.fst).Sublist (regs.map Prod.fst) := by
  rw [ageRegistrations, List.map_map]
  exact List.Sublist.map Prod.fst List.filter_sublist

theorem eraseUnreachable_perm (ha : IPAddress) (l : List VEntry) :
    ((eraseUnreachable ha l).2 ++ (eraseUnreachable ha l).1).Perm l := by
  -- an erased entry moves to the answers, the entry behind it stays unexamined
  fun_induction eraseUnreachable ha l with
  | case1 => exact List.Perm.refl _
  | case2 e h => exact List.Perm.refl _
  | case3 e h => exact List.Perm.refl _
  | case4 e f rest h r ih => exact (List.perm_middle.trans (ih.cons f)).cons e
  | case5 e f rest h r ih => exact List.perm_middle.trans (ih.cons e)

theorem ageRequests_count (l : List VEntry) (home : IPAddress) :
    ((ageRequests l).2.toList.map VEntry.ipSrc).count home +
      ((ageRequests l).1.map VEntry.ipSrc).count home ≤ (l.map VEntry.ipSrc).count home := by
  -- the loop answers one entry and stops, or drops entries without an answer
  fun_induction ageRequests l with
  | case1 => simp
  | case2 e rest h e' h' => simp [e', List.count_cons, Nat.add_comm]
  | case3 e rest h e' h' r ih =>
    simp only [List.map_cons, List.count_cons, r, e']
    omega
  | case4 e rest h ih =>
    simp only [List.map_cons, List.count_cons]
    omega

/-- The keys of the registrations are pairwise distinct, and each registration is that
of the mobile node it is keyed by. -/
def KeysMatch (fa : FA) : Prop :=
  (fa.registrations.map Prod.fst).Nodup ∧ ∀ reg ∈ fa.registrations, reg.2.ipSrc = reg.1

theorem keysMatch_transition (relay : Relay) (fa fa' : FA) (i : Input) (out : List Packet)
    (ht : Transition relay fa i fa' out) (h : KeysMatch fa) : KeysMatch fa' := by
  cases ht with
  | idle => exact h
  | refused => exact h
  | admitted => exact h
  | unreachable => exact h
  | reply rand p pre post entry _ _ _ he _ =>
    -- a new registration copies the matched entry, whose source is the key
    refine ⟨nodup_updateRegistrations _ entry _ h.1, ?_⟩
    intro reg hreg
    rcases mem_updateRegistrations _ entry _ reg hreg with hold | ⟨-, rfl⟩
    · exact h.2 reg hold
    · exact he
  | tick =>
    refine ⟨h.1.sublist (ageRegistrations_keys _), ?_⟩
    intro reg hreg
    obtain ⟨old, hold, hkey, hrest⟩ := mem_ageRegistrations _ reg hreg
    rw [hrest, ← hkey]
    exact h.2 old hold

/-- Some earlier reply for `home`, with an accepting code and a positive lifetime, was
matched to a pending request, of which `e` is a copy but for its remaining lifetime. -/
def Granted (relay : Relay) (a : IPAddress) (inputs : List Input) (home : IPAddress) (e : VEntry) :
    Prop :=
  ∃ before rand p after i q, inputs = before ++ .packet rand p :: after ∧
    callsRelayRep p ∧ badUdpChecksum (iph p) = false ∧
    grants (reph p) ∧ (reph p).homeAddress = home ∧
    firstMatch (fun e => e.ipSrc == (reph p).homeAddress)
      (Runs.final (step relay) (empty a) before).requests = some (i, q) ∧
    e = { q with remainingLifetime := e.remainingLifetime }

theorem Granted.concat {relay : Relay} {a : IPAddress} {inputs : List Input} {home : IPAddress}
    {e : VEntry} (h : Granted relay a inputs home e) (i : Input) :
    Granted relay a (inputs ++ [i]) home e := by
  obtain ⟨before, rand, p, after, j, q, rfl, hrest⟩ := h
  exact ⟨before, rand, p, after ++ [i], j, q, by simp, hrest⟩

theorem Granted.aged {relay : Relay} {a : IPAddress} {inputs : List Input} {home : IPAddress}
    {e e' : VEntry} (h : Granted relay a inputs home e)
    (he : e' = { e with remainingLifetime := e'.remainingLifetime }) :
    Granted relay a inputs home e' := by
  obtain ⟨before, rand, p, after, j, q, hi, hc, hs, hg, hh, hm, hq⟩ := h
  refine ⟨before, rand, p, after, j, q, hi, hc, hs, hg, hh, hm, ?_⟩
  rw [he, hq]

theorem granted_transition (relay : Relay) (a : IPAddress) (inputs : List Input) (i : Input)
    (fa' : FA) (out : List Packet)
    (ht : Transition relay (Runs.final (step relay) (empty a) inputs) i fa' out)
    (h : ∀ reg ∈ (Runs.final (step relay) (empty a) inputs).registrations,
      Granted relay a inputs reg.1 reg.2) :
    ∀ reg ∈ fa'.registrations, Granted relay a (inputs ++ [i]) reg.1 reg.2 := by
  intro reg hreg
  cases ht with
  | idle => exact (h reg hreg).concat _
  | refused => exact (h reg hreg).concat _
  | admitted => exact (h reg hreg).concat _
  | unreachable => exact (h reg hreg).concat _
  | tick =>
    obtain ⟨old, hold, hkey, hrest⟩ := mem_ageRegistrations _ reg hreg
    rw [← hkey]
    exact ((h old hold).concat _).aged hrest
  | reply rand p pre post entry hcall hsum hreq he hpre =>
    rcases mem_updateRegistrations _ entry _ reg hreg with hold | ⟨hgrant, rfl⟩
    · exact (h reg hold).concat _
    · -- this step itself is the grant, and `inputs` are what came before it
      have hm := firstMatch_append (fun e : VEntry => e.ipSrc == (reph p).homeAddress) pre post
        entry (by simpa using he) (by simpa using hpre)
      exact ⟨inputs, rand, p, [], pre.length, entry, rfl, hcall, hsum, hgrant, rfl,
        by rw [hreq, hm], rfl⟩

theorem granted_run (relay : Relay) (a : IPAddress) (inputs : List Input) :
    ∀ reg ∈ (Runs.final (step relay) (empty a) inputs).registrations,
      Granted relay a inputs reg.1 reg.2 := by
  apply Runs.history_invariant (step relay) (empty a)
    (fun inputs _ fa => ∀ reg ∈ fa.registrations, Granted relay a inputs reg.1 reg.2)
  · simp [empty]
  · intro inputs i ih
    exact granted_transition relay a inputs i _ _ (step_transition relay _ i) ih

/-- The visitor list. In every state that a run reaches, registrations have distinct
keys, belong to the node they are keyed by, and were granted. -/
theorem registrations_granted (relay : Relay) (a : IPAddress) (inputs : List Input) :
    let fa := Runs.final (step relay) (empty a) inputs
    (fa.registrations.map Prod.fst).Nodup ∧
      ∀ reg ∈ fa.registrations, reg.2.ipSrc = reg.1 ∧ Granted relay a inputs reg.1 reg.2 := by
  have hk : KeysMatch (Runs.final (step relay) (empty a) inputs) := by
    apply Runs.history_invariant (step relay) (empty a) (fun _ _ fa => KeysMatch fa)
    · exact ⟨List.nodup_nil, by simp [empty]⟩
    · intro inputs i ih
      exact keysMatch_transition relay _ _ i _ (step_transition relay _ i) ih
  exact ⟨hk.1, fun reg hreg => ⟨hk.2 reg hreg, granted_run relay a inputs reg hreg⟩⟩

def requester : Input → Option IPAddress
  | .packet _ p => if callsRelayReq p then some (ip p).ipSrc else none
  | .tick => none

def recipient (p : Packet) : IPAddress := (ClickIp.ofBytes p.data).ipDst

@[simp] theorem recipient_createRep (code : UInt8) (ips ipd : IPAddress) (udpd : UInt16) (id : UInt64)
    (homeAgent : IPAddress) : recipient (createRep code ips ipd udpd id homeAgent) = ipd := by
  rw [recipient, createRep, ofBytes_udpData]
  rfl

/-- Whom a reply is addressed to, and what it says: address, port, identification, code. -/
def addressed (d : Packet) : IPAddress × UInt16 × UInt64 × UInt8 :=
  let rep := RegrepH.ofBytes (d.data.drop (sizeofClickIp+sizeofClickUdp))
  ((ClickIp.ofBytes d.data).ipDst,
    ntohs (ClickUdp.ofBytes (d.data.drop sizeofClickIp)).uhDport, rep.identification, rep.code)

theorem addressed_createRep (code : UInt8) (ips ipd : IPAddress) (udpd : UInt16) (id : UInt64)
    (homeAgent : IPAddress) :
    addressed (createRep code ips ipd udpd id homeAgent) = (ipd, udpd, id, code) := by
  have hport : ntohs (rawUdp udpd).uhDport = udpd := ntohs_htons udpd
  unfold addressed
  rw [createRep_eq, ip_sealedPacket, udp_sealedPacket, payload_sealedPacket, RegrepH.ofBytes_only]
  change (ipd, ntohs (rawUdp udpd).uhDport, id, code) = _
  rw [hport]

theorem recipient_relayedReply (relay : Relay) (p : Packet) (udpDst : UInt16)
    (h : callsRelayRep p) : recipient (relayedReply relay p udpDst) = (reph p).homeAddress := by
  rw [recipient, relayedReply_data relay p udpDst h, ofBytes_sealedData]

/-- One step answers a node at most as often as it takes requests of that node from
outside or from the table. -/
theorem answers_transition (relay : Relay) (fa fa' : FA) (i : Input) (out : List Packet)
    (ht : Transition relay fa i fa' out) (home : IPAddress) :
    (out.map recipient).count home + (fa'.requests.map VEntry.ipSrc).count home ≤
      (requester i).toList.count home + (fa.requests.map VEntry.ipSrc).count home := by
  cases ht with
  | idle => simp
  | refused rand p code hcall => simp [requester, hcall]
  | admitted rand p hadmit =>
    simp [requester, hadmit.1, pendingEntry, List.count_append, Nat.add_comm]
  | reply rand p pre post entry hcall hsum hreq he hpre =>
    rw [hreq]
    simp only [List.map_cons, List.map_nil, List.map_append, List.count_append, List.count_cons,
      List.count_nil, recipient_relayedReply relay p _ hcall, he]
    omega
  | unreachable rand p code ha =>
    -- one answer for each erased entry, and to its node
    have hout : ((eraseUnreachable ha fa.requests).2.map (unreachableRep code ha)).map recipient =
        (eraseUnreachable ha fa.requests).2.map VEntry.ipSrc := by
      rw [List.map_map]
      exact List.map_congr_left (fun e _ => recipient_createRep _ _ _ _ _ _)
    have hperm := ((eraseUnreachable_perm ha fa.requests).map VEntry.ipSrc).count_eq home
    rw [List.map_append, List.count_append] at hperm
    rw [hout]
    dsimp only
    omega
  | tick =>
    have hout : ((ageRequests fa.requests).2.toList.map timeoutRep).map recipient =
        (ageRequests fa.requests).2.toList.map VEntry.ipSrc := by
      rw [List.map_map]
      exact List.map_congr_left (fun e _ => recipient_createRep _ _ _ _ _ _)
    have hage := ageRequests_count fa.requests home
    rw [hout]
    dsimp only
    omega

theorem answers_run (relay : Relay) (a : IPAddress) (inputs : List Input) (home : IPAddress) :
    ((outputs 0 (Runs.trace (step relay) (empty a) inputs)).map recipient).count home +
        ((Runs.final (step relay) (empty a) inputs).requests.map VEntry.ipSrc).count home ≤
      (inputs.filterMap requester).count home := by
  apply Runs.history_invariant (step relay) (empty a) (fun inputs acts fa =>
    ((outputs 0 acts).map recipient).count home + (fa.requests.map VEntry.ipSrc).count home ≤
      (inputs.filterMap requester).count home)
  · simp [empty]
  · intro inputs i ih
    have hstep := answers_transition relay _ _ i _
      (step_transition relay (Runs.final (step relay) (empty a) inputs) i) home
    have hreq : [i].filterMap requester = (requester i).toList := by
      cases hr : requester i <;> simp [hr]
    rw [outputs_append, List.map_append, List.count_append, List.filterMap_append,
      List.count_append, hreq]
    omega

/-- No request is answered twice. The answers given and the requests pending number at
most the calls of `relayReq`, in all and for each mobile node by itself. -/
theorem answers_and_pending_le_requests (relay : Relay) (a : IPAddress) (inputs : List Input) :
    let fa := Runs.final (step relay) (empty a) inputs
    let answers := outputs 0 (Runs.trace (step relay) (empty a) inputs)
    answers.length+fa.requests.length ≤ (inputs.filterMap requester).length ∧
      ∀ home, (answers.map recipient).count home+(fa.requests.map VEntry.ipSrc).count home ≤
        (inputs.filterMap requester).count home := by
  intro fa answers
  have hcount := answers_run relay a inputs
  refine ⟨?_, hcount⟩
  -- node by node the answers and the pending entries fit into the requests
  have hsub : (answers.map recipient ++ fa.requests.map VEntry.ipSrc).Subperm
      (inputs.filterMap requester) := by
    rw [List.subperm_ext_iff]
    intro home _
    rw [List.count_append]
    exact hcount home
  simpa using hsub.length_le

def nodes (fa : FA) : Finset IPAddress :=
  (fa.registrations.map Prod.fst ++ fa.requests.map VEntry.ipSrc).toFinset

/-- The step does not make more than `n` mobile nodes registered or pending. The test
in `relayReq` counts the registrations only. -/
def hasRoom (n : ℕ) (relay : Relay) (fa : FA) : Input → Prop
  | .packet _ p => admits relay fa p → (insert (ip p).ipSrc (nodes fa)).card ≤ n
  | .tick => True

instance (n : ℕ) (relay : Relay) (fa : FA) (i : Input) : Decidable (hasRoom n relay fa i) :=
  match i with
  | .packet _ p => inferInstanceAs (Decidable (admits relay fa p → _))
  | .tick => inferInstanceAs (Decidable True)

/-- Only an admitted request brings in a mobile node. -/
theorem nodes_transition (relay : Relay) (fa fa' : FA) (i : Input) (out : List Packet)
    (ht : Transition relay fa i fa' out) :
    nodes fa' ⊆ nodes fa ∨
      ∃ rand p, i = .packet rand p ∧ admits relay fa p ∧
        nodes fa' = insert (ip p).ipSrc (nodes fa) := by
  cases ht with
  | idle => exact Or.inl (Finset.Subset.refl _)
  | refused => exact Or.inl (Finset.Subset.refl _)
  | admitted rand p hadmit =>
    refine Or.inr ⟨rand, p, rfl, hadmit, ?_⟩
    ext home
    simp only [nodes, pendingEntry, List.map_append, List.map_cons, List.map_nil, List.mem_toFinset,
      List.mem_append, List.mem_singleton, Finset.mem_insert]
    tauto
  | reply rand p pre post entry hcall hsum hreq he hpre =>
    refine Or.inl ?_
    intro home hhome
    simp only [nodes, hreq, List.map_append, List.map_cons, List.mem_toFinset, List.mem_append,
      List.mem_cons] at hhome ⊢
    rcases hhome with hkey | hpend
    · -- a new key is the node of the entry that was pending before
      obtain ⟨reg, hreg, rfl⟩ := List.mem_map.mp hkey
      rcases mem_updateRegistrations _ entry _ reg hreg with hold | ⟨-, rfl⟩
      · exact Or.inl (List.mem_map_of_mem hold)
      · exact Or.inr (Or.inr (Or.inl he.symm))
    · tauto
  | unreachable rand p code ha =>
    refine Or.inl ?_
    intro home hhome
    simp only [nodes, List.mem_toFinset, List.mem_append] at hhome ⊢
    refine hhome.imp id ?_
    intro hpend
    obtain ⟨e, he, rfl⟩ := List.mem_map.mp hpend
    have hmem : e ∈ fa.requests :=
      (eraseUnreachable_perm ha fa.requests).mem_iff.mp (List.mem_append_right _ he)
    exact List.mem_map_of_mem hmem
  | tick =>
    refine Or.inl ?_
    intro home hhome
    simp only [nodes, List.mem_toFinset, List.mem_append] at hhome ⊢
    refine hhome.imp (fun hreg => (ageRegistrations_keys _).subset hreg) ?_
    intro hpend
    -- what is pending afterwards was counted before
    have hage := ageRequests_count fa.requests home
    have hpos := List.count_pos_iff.mpr hpend
    exact List.count_pos_iff.mp (by omega)

/-- With at most `n` nodes registered or pending at every admission, at most `n`
registrations are ever held. -/
theorem registrations_length_le (n : ℕ) (privateIP a : IPAddress) (inputs : List Input)
    (hroom : Runs.Meets (step ⟨privateIP, n⟩) (hasRoom n ⟨privateIP, n⟩) (empty a) inputs) :
    (Runs.final (step ⟨privateIP, n⟩) (empty a) inputs).registrations.length ≤ n := by
  -- the nodes in either table stay within the limit, since only an admission adds one
  let relay : Relay := ⟨privateIP, n⟩
  have hinv : KeysMatch (Runs.final (step relay) (empty a) inputs) ∧
      (nodes (Runs.final (step relay) (empty a) inputs)).card ≤ n := by
    refine Runs.guarded_history_invariant (step relay) (hasRoom n relay) (empty a)
      (fun _ _ fa => KeysMatch fa ∧ (nodes fa).card ≤ n) ?_ ?_ inputs hroom
    · exact ⟨⟨List.nodup_nil, by simp [empty]⟩, by simp [nodes, empty]⟩
    · intro inputs i hguard hfa
      have ht := step_transition relay (Runs.final (step relay) (empty a) inputs) i
      refine ⟨keysMatch_transition relay _ _ i _ ht hfa.1, ?_⟩
      rcases nodes_transition relay _ _ i _ ht with hsub | ⟨rand, p, rfl, hadmit, heq⟩
      · exact Nat.le_trans (Finset.card_le_card hsub) hfa.2
      · rw [heq]
        exact hguard hadmit
  let fa := Runs.final (step relay) (empty a) inputs
  calc
    fa.registrations.length = (fa.registrations.map Prod.fst).toFinset.card := by
      rw [List.toFinset_card_of_nodup hinv.1.1, List.length_map]
    _ ≤ (nodes fa).card := by
      apply Finset.card_le_card
      intro home hhome
      simp only [nodes, List.mem_toFinset, List.mem_append] at hhome ⊢
      exact Or.inl hhome
    _ ≤ n := hinv.2

/-- The home agent's reply to a request of the node `home`, as the relay receives it. -/
def replyFrame (home : IPAddress) (draw : Draw) : Packet :=
  (RegRep.replyPacket 0 (relayedRequest Deployment.foreignAgent 0
    (Deployment.requestFrame home draw)).strip).frame (default : Ether).bytes

theorem registrations_length_le_one :
    (Runs.final (step ⟨Deployment.foreignAgentPrivateAddress, (1 : ℕ)⟩)
      (empty Deployment.foreignAgentPublicAddress)
      [.packet 0 (Deployment.requestFrame Deployment.mobileNodeAddress ⟨1, 1⟩),
        .packet 0 (replyFrame Deployment.mobileNodeAddress ⟨1, 1⟩), .tick,
        .packet 0 (Deployment.requestFrame (Deployment.ipv4 192 168 2 2)
          ⟨2, 2⟩)]).registrations.length ≤ 1 :=
  registrations_length_le 1 _ _ _ (by decide +kernel)

/-- Two nodes are admitted while neither is registered yet. -/
theorem registrations_exceed_limit :
    ¬ (Runs.final (step ⟨Deployment.foreignAgentPrivateAddress, (1 : ℕ)⟩)
      (empty Deployment.foreignAgentPublicAddress)
      [.packet 0 (Deployment.requestFrame Deployment.mobileNodeAddress ⟨1, 1⟩),
        .packet 0 (Deployment.requestFrame (Deployment.ipv4 192 168 2 2) ⟨2, 2⟩),
        .packet 0 (replyFrame Deployment.mobileNodeAddress ⟨1, 1⟩),
        .packet 0 (replyFrame (Deployment.ipv4 192 168 2 2) ⟨2, 2⟩)]).registrations.length ≤ 1 := by
  decide +kernel

end Relay

end MobileIP
