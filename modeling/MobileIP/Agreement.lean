import MobileIP.Network
import Mathlib.Data.List.Nodup

/-! What the mobile node and the home agent know of each other, in every run of the
network. The invariant says where each message in flight comes from. -/
namespace MobileIP

open LittleEndian VectorSearch

namespace Network

/-- An acceptance with this identification answers a request of the mobile node, which
was a deregistration or had its binding added. -/
def Backed (es : List Event) (identification : UInt64) : Prop :=
  ∃ req dest, Event.requested req dest ∈ es ∧ req.identification = identification ∧
    (req.homeAddress = req.careOfAddress ∨ Event.bound req ∈ es)

/-- Where a message in flight comes from: a request has been sent by the mobile node, and of a
reply `ok` holds. -/
def Carries (ok : RegrepH → Prop) (es : List Event) : Message → Prop
  | .request p => ∃ ip udp req a dest, p = sealedPacket ip udp req.toBytes a ∧ ip.ipHl = 5 ∧
      ip.ipP = 17 ∧ req.type = 1 ∧ Event.requested req dest ∈ es
  | .reply p => ∃ ip udp, ∃ rep : RegrepH, ∃ a, p = sealedPacket ip udp rep.toBytes a ∧ ip.ipHl = 5 ∧
      ip.ipP = 17 ∧ ok rep
  | .icmp p => (ClickIp.ofBytes p.data).ipP = 1

/-- Where no acceptance is feigned, every acceptance in flight is backed. -/
def Genuine (es : List Event) : Message → Prop :=
  Carries (fun rep => rep.code = 0 ∨ rep.code = 1 → Backed es rep.identification) es

section Carries

variable (ok : RegrepH → Prop) (es : List Event)

theorem carries_request (ip : ClickIp) (udp : ClickUdp) (req : RegreqH)
    (a dest : IPAddress) (hl : ip.ipHl = 5) (hproto : ip.ipP = 17) (ht : req.type = 1)
    (hreq : Event.requested req dest ∈ es) :
    Carries ok es (.request (sealedPacket ip udp req.toBytes a)) :=
  ⟨ip, udp, req, a, dest, rfl, hl, hproto, ht, hreq⟩

theorem carries_reply (ip : ClickIp) (udp : ClickUdp) (rep : RegrepH)
    (a : IPAddress) (hl : ip.ipHl = 5) (hproto : ip.ipP = 17) (hok : ok rep) :
    Carries ok es (.reply (sealedPacket ip udp rep.toBytes a)) :=
  ⟨ip, udp, rep, a, rfl, hl, hproto, hok⟩

end Carries

/-- The invariant of the network, with what has happened so far. -/
structure Consistent (gateway : IPAddress) (es : List Event) (pending : List Request)
    (net : List Message) : Prop where
  issued : ∀ req dest, Event.requested req dest ∈ es →
    req.homeAddress = req.careOfAddress → dest = gateway
  pending : ∀ r ∈ pending, ∃ req, Event.requested req r.dest ∈ es ∧
    req.identification.toUInt32 = r.id
  net : ∀ m ∈ net, Genuine es m

theorem Backed.mono {es es' : List Event} {identification : UInt64} (h : Backed es identification)
    (hsub : es ⊆ es') : Backed es' identification := by
  obtain ⟨req, dest, hreq, hid, hb⟩ := h
  refine ⟨req, dest, hsub hreq, hid, hb.imp id ?_⟩
  intro hbound
  exact hsub hbound

theorem Carries.mono {ok ok' : RegrepH → Prop} {es es' : List Event} {m : Message}
    (h : Carries ok es m) (hok : ∀ rep, ok rep → ok' rep) (hsub : es ⊆ es') : Carries ok' es' m := by
  cases m with
  | request p =>
    obtain ⟨ip, udp, req, a, dest, hp, hl, hproto, ht, hreq⟩ := h
    exact ⟨ip, udp, req, a, dest, hp, hl, hproto, ht, hsub hreq⟩
  | reply p =>
    obtain ⟨ip, udp, rep, a, hp, hl, hproto, hrep⟩ := h
    exact ⟨ip, udp, rep, a, hp, hl, hproto, hok rep hrep⟩
  | icmp p => exact h

theorem Genuine.mono {es es' : List Event} {m : Message} (h : Genuine es m) (hsub : es ⊆ es') :
    Genuine es' m :=
  Carries.mono h (fun _ hbacked hc => (hbacked hc).mono hsub) hsub

/-- One step of the invariant: new deregistrations go to the gateway, the pending
requests are old or just issued, the messages are genuine. -/
theorem Consistent.next {gateway : IPAddress} {es : List Event} {pending : List Request}
    {net : List Message} (h : Consistent gateway es pending net) (new : List Event)
    (pending' : List Request) (net' : List Message)
    (hnew : ∀ req dest, Event.requested req dest ∈ new →
      req.homeAddress = req.careOfAddress → dest = gateway)
    (hpending : ∀ r ∈ pending', (∃ old ∈ pending, r.dest = old.dest ∧ r.id = old.id) ∨
      ∃ req, Event.requested req r.dest ∈ new ∧ req.identification.toUInt32 = r.id)
    (hnet : ∀ m ∈ net', Genuine (es ++ new) m) :
    Consistent gateway (es ++ new) pending' net' where
  issued := by
    intro req dest hmem hd
    rcases List.mem_append.mp hmem with hmem | hmem
    · exact h.issued req dest hmem hd
    · exact hnew req dest hmem hd
  pending := by
    intro r hr
    rcases hpending r hr with ⟨old, hold, hdest, hid⟩ | ⟨req, hreq, hid⟩
    · obtain ⟨req, hreq, hid'⟩ := h.pending old hold
      exact ⟨req, List.mem_append_left _ (hdest ▸ hreq), hid'.trans hid.symm⟩
    · exact ⟨req, List.mem_append_right _ hreq, hid⟩
  net := hnet

theorem Consistent.quiet {gateway : IPAddress} {es : List Event} {pending : List Request}
    {net : List Message} (h : Consistent gateway es pending net) (pending' : List Request)
    (net' : List Message)
    (hpending : ∀ r ∈ pending', ∃ old ∈ pending, r.dest = old.dest ∧ r.id = old.id)
    (hnet : ∀ m ∈ net', Genuine (es ++ []) m) : Consistent gateway (es ++ []) pending' net' :=
  h.next [] pending' net' (by simp) (fun r hr => Or.inl (hpending r hr)) hnet

/-- What an advertisement makes `RegReq` do, as the network sees it: nothing, or one request
is in flight and pending. -/
theorem push_sends (mn : MNInfo) (draw : Draw) (adv : Packet) :
    ((RegReq.push mn draw adv).1 = mn ∧ outputs 0 (RegReq.push mn draw adv).2 = []) ∨
    ∃ mn₁ dest lifetime co,
      let rr := RegReq.requestHeader mn₁ draw lifetime co
      let p := sealedPacket (RegReq.requestIp mn₁ dest) (RegReq.rawUdp draw) rr.toBytes dest
      (RegReq.push mn draw adv).1 =
        { mn₁ with pending := mn.pending ++ [RegReq.pendingRequest draw dest lifetime co] } ∧
      outputs 0 (RegReq.push mn draw adv).2 = [p] ∧ requestedEvent p = .requested rr dest ∧
      mn₁.gateway = mn.gateway ∧ mn₁.homeAddress = mn.homeAddress ∧
      (co = mn.homeAddress → dest = mn.gateway ∨ RegReq.offersHome mn adv) ∧
      (mn₁.foreignAgent = mn.foreignAgent ∨
        mn₁.foreignAgent = mn.gateway ∧ dest = mn.gateway ∧ co = mn.homeAddress) := by
  rcases RegReq.push_cases mn draw adv with
    hp | ⟨mn₁, dest, lifetime, co, hp, hpend, hgw, hhome, hco, hagent⟩
  · rw [hp]
    exact Or.inl ⟨rfl, rfl⟩
  · refine Or.inr ⟨mn₁, dest, lifetime, co, ?_, ?_, ?_, hgw, hhome, hco, hagent⟩
    · rw [hp, RegReq.makePacket_eq, ← hpend]
    · rw [hp, RegReq.makePacket_eq]
      rfl
    · rw [requestedEvent, RegRep.request, ip_sealedPacket, payload_sealedPacket, RegreqH.ofBytes_only]
      rfl

/-- What the mobile node sends to an advertisement is on record. -/
theorem carries_advertise (ok : RegrepH → Prop) (es : List Event) (mn : MNInfo) (draw : Draw) (adv : Packet) :
    ∀ p ∈ outputs 0 (RegReq.push mn draw adv).2,
      Carries ok (es ++ (outputs 0 (RegReq.push mn draw adv).2).map requestedEvent) (.request p) := by
  rcases push_sends mn draw adv with ⟨-, hout⟩ | ⟨mn₁, dest, lifetime, co, -, hout, hev, -⟩
  · rw [hout]
    simp
  · let rr := RegReq.requestHeader mn₁ draw lifetime co
    intro p hp
    rw [hout, List.mem_singleton] at hp
    rw [hout, List.map_singleton, hev, hp]
    exact carries_request ok _ _ _ rr dest dest rfl rfl rfl
      (List.mem_append_right _ (List.mem_singleton_self _))

/-- `RegReq::push` keeps the invariant, unless it is offered the home address. -/
theorem Consistent.advertise {gateway : IPAddress} {es : List Event} {mn : MNInfo}
    {net : List Message} (h : Consistent gateway es mn.pending net) (hg : mn.gateway = gateway)
    (draw : Draw) (adv : Packet) (hoffer : ¬ RegReq.offersHome mn adv) :
    let r := RegReq.push mn draw adv
    let new := (outputs 0 r.2).map requestedEvent
    r.1.gateway = gateway ∧ ∀ net', (∀ m ∈ net', Genuine (es ++ new) m) →
      Consistent gateway (es ++ new) r.1.pending net' := by
  dsimp only
  rcases push_sends mn draw adv with
    ⟨hmn, hout⟩ | ⟨mn₁, dest, lifetime, co, hmn, hout, hev, hgw, hhome, hco, -⟩
  · rw [hmn, hout]
    exact ⟨hg, fun net' => h.quiet mn.pending net' (fun r hr => ⟨r, hr, rfl, rfl⟩)⟩
  · let rr := RegReq.requestHeader mn₁ draw lifetime co
    rw [hmn, hout, List.map_singleton, hev]
    refine ⟨hgw.trans hg, fun net' => h.next _ _ net' ?_ ?_⟩
    · -- a request that names the home address as care-of address goes to the gateway
      intro req dest' hmem hd
      obtain ⟨rfl, rfl⟩ := Event.requested.inj (List.mem_singleton.mp hmem)
      rcases hco (hd.symm.trans hhome) with hdest | hbad
      · exact hdest.trans hg
      · exact False.elim (hoffer hbad)
    · intro r hr
      rcases List.mem_append.mp hr with hr | hr
      · exact Or.inl ⟨r, hr, rfl, rfl⟩
      · rw [List.mem_singleton.mp hr]
        exact Or.inr ⟨rr, List.mem_singleton_self _, rfl⟩

/-- A pending request would be answered to the ICMP error `p` with a code that reads
as an acceptance: the codes of net and host unreachable. -/
def feignsAcceptance (fa : FA) (p : Packet) : Prop :=
  let icmph := ClickIcmp.ofBytes (p.data.drop sizeofClickIp)
  let origip := ClickIp.ofBytes (p.data.drop (sizeofClickIp+sizeofClickIcmp))
  icmph.icmpType = 3 ∧ (icmph.icmpCode = 0 ∨ icmph.icmpCode = 1) ∧
    ∃ e ∈ fa.requests, e.homeAgent = origip.ipDst

instance (fa : FA) (p : Packet) : Decidable (feignsAcceptance fa p) :=
  inferInstanceAs (Decidable (_ ∧ _ ∧ _))

section Relayed

-- the refusals that the relay makes itself are replies of which `ok` holds
variable (ok : RegrepH → Prop) (hok : ∀ rep : RegrepH, ¬ (rep.code = 0 ∨ rep.code = 1) → ok rep)
variable (es : List Event)

include hok in
theorem carries_createRep (code : UInt8) (ips ipd : IPAddress) (udpd : UInt16)
    (id : UInt64) (homeAgent : IPAddress) (hcode : ¬ (code = 0 ∨ code = 1)) :
    Carries ok es (.reply (Relay.createRep code ips ipd udpd id homeAgent)) := by
  rw [Relay.createRep_eq]
  exact carries_reply ok es _ _ _ _ rfl rfl (hok _ hcode)

-- the relay tells the three kinds of message apart by their size and protocol
variable (p : Packet) (relay : Relay) (fa : FA) (rand : ℕ) (ether : Ether)

include hok in
theorem carries_relayed_request (hp : Carries ok es (.request p)) :
    let r := Relay.push relay fa rand (p.frame ether.bytes)
    (∀ q ∈ outputs 1 r.2, Carries ok es (.request q.strip)) ∧
      ∀ q ∈ outputs 0 r.2, Carries ok es (.reply q) := by
  obtain ⟨ip, udp, req, a, dest, rfl, hl, hproto, ht, hreq⟩ := hp
  rw [Relay.push_request ether relay fa rand ip udp req a hl hproto]
  cases hc : Relay.rejectCode relay fa req.flags with
  | some code =>
    refine ⟨by simp, ?_⟩
    intro q hq
    simp only [outputs_emit, outputs_kill, outputs_nil, if_true, List.mem_singleton] at hq
    rw [hq]
    exact carries_createRep ok hok es code _ _ _ _ _ (Relay.rejectCode_some relay fa _ code hc)
  | none =>
    refine ⟨?_, by simp⟩
    intro q hq
    simp only [outputs_forward, outputs_nil, if_true, List.mem_singleton] at hq
    rw [hq, strip_frame]
    exact carries_request ok es (relayedIp fa ip req) (relayedUdp rand udp) req req.homeAgent dest
      (by simpa using hl) (by simpa using hproto) ht hreq

theorem carries_relayed_reply (hp : Carries ok es (.reply p)) :
    let r := Relay.push relay fa rand (p.frame ether.bytes)
    outputs 1 r.2 = [] ∧ ∀ q ∈ outputs 0 r.2, Carries ok es (.reply q) := by
  obtain ⟨ip, udp, rep, a, rfl, hl, hproto, hrep⟩ := hp
  rw [Relay.push_reply ether relay fa rand ip udp rep a hl hproto]
  cases hf : firstMatch (fun e : VEntry => e.ipSrc == rep.homeAddress) fa.requests with
  | none => exact ⟨by simp, by simp⟩
  | some r =>
    refine ⟨by simp, ?_⟩
    intro q hq
    simp only [outputs_forward, outputs_nil, if_true, List.mem_singleton] at hq
    rw [hq]
    exact carries_reply ok es { ip with ipSrc := relay.privateIP, ipDst := rep.homeAddress } _ rep _
      hl hproto hrep

include hok in
theorem carries_relayed_icmp (hp : Carries ok es (.icmp p))
    (hfeigns : feignsAcceptance fa p → ∀ rep, ok rep) :
    let r := Relay.push relay fa rand (p.frame ether.bytes)
    outputs 1 r.2 = [] ∧ ∀ q ∈ outputs 0 r.2, Carries ok es (.reply q) := by
  have hip : (Relay.ip (p.frame ether.bytes)).ipP = 1 := by
    rw [Relay.ip, Relay.iph_frame]
    exact hp
  unfold Relay.push Relay.pushIcmp
  rw [if_pos hip]
  by_cases ht : (Relay.icmph (p.frame ether.bytes)).icmpType = 3
  · rw [if_pos ht]
    dsimp only
    rw [Relay.outputs_map_emit]
    refine ⟨by simp [outputs, Action.sent], ?_⟩
    intro d hd
    obtain ⟨e, he, rfl⟩ := List.mem_map.mp hd
    obtain ⟨hmem, hha⟩ := Relay.mem_eraseUnreachable _ _ e he
    by_cases hc : (Relay.icmph (p.frame ether.bytes)).icmpCode = 0 ∨
        (Relay.icmph (p.frame ether.bytes)).icmpCode = 1
    · rw [Relay.icmph, Relay.iph_frame] at ht hc
      rw [Relay.origip, Relay.iph_frame] at hha
      rw [Relay.unreachableRep, Relay.createRep_eq]
      exact carries_reply ok es _ _ _ _ rfl rfl (hfeigns ⟨ht, hc, e, hmem, hha⟩ _)
    · exact carries_createRep ok hok es _ _ _ _ _ _ hc
  · rw [if_neg ht]
    exact ⟨by simp, by simp⟩

include hok in
/-- What the relay sends where a message reaches it; only a request makes it send one on. -/
theorem carries_toRelay (m : Message) (hm : Carries ok es m)
    (hicmp : ∀ p, m = .icmp p → feignsAcceptance fa p → ∀ rep, ok rep) :
    let r := Relay.push relay fa rand (m.packet.frame ether.bytes)
    (∀ p ∈ outputs 1 r.2, Carries ok es (.request p.strip)) ∧
      (∀ p ∈ outputs 0 r.2, Carries ok es (.reply p)) ∧
      ((∀ p, m ≠ .request p) → outputs 1 r.2 = []) := by
  cases m with
  | request p =>
    have hrelayed := carries_relayed_request ok hok es p relay fa rand ether hm
    exact ⟨hrelayed.1, hrelayed.2, fun hn => absurd rfl (hn p)⟩
  | reply p =>
    have hrelayed := carries_relayed_reply ok es p relay fa rand ether hm
    refine ⟨?_, hrelayed.2, fun _ => hrelayed.1⟩
    intro q hq
    rw [Message.packet, hrelayed.1] at hq
    cases hq
  | icmp p =>
    have hrelayed := carries_relayed_icmp ok hok es p relay fa rand ether hm (hicmp p rfl)
    refine ⟨?_, hrelayed.2, fun _ => hrelayed.1⟩
    intro q hq
    rw [Message.packet, hrelayed.1] at hq
    cases hq

include hok in
theorem carries_tickRelay : ∀ p ∈ outputs 0 (Relay.runTimer fa).2, Carries ok es (.reply p) := by
  intro p hp
  unfold Relay.runTimer at hp
  dsimp only at hp
  rw [Relay.outputs_map_emit] at hp
  obtain ⟨e, -, rfl⟩ := List.mem_map.mp hp
  exact carries_createRep ok hok es 78 _ _ _ _ _ (by decide)

end Relayed

/-- A refusal backs nothing. -/
theorem backed_of_refusal (es : List Event) (rep : RegrepH) (h : ¬ (rep.code = 0 ∨ rep.code = 1)) :
    rep.code = 0 ∨ rep.code = 1 → Backed es rep.identification :=
  fun hc => absurd hc h

theorem bound_mem_homeEvents (ha : HA) (p : Packet) (h : RegRep.accepts ha p)
    (hne : (RegRep.request p).homeAddress ≠ (RegRep.request p).careOfAddress) :
    Event.bound (RegRep.request p) ∈ homeEvents ha p := by
  have hadd : (RegRep.push ha p).1.mobilityBindings =
      ha.mobilityBindings ++ [RegRep.newBinding (RegRep.request p)] := by
    rw [RegRep.push_fst, if_pos h, RegRep.updateBindings, if_neg hne]
  unfold homeEvents
  dsimp only
  rw [if_pos h, if_pos hadd]
  simp

/-- `RegRep` answers every request that the mobile node sent with one reply. -/
theorem outputs_toHome (ha : HA) (ip : ClickIp) (udp : ClickUdp) (req : RegreqH) (a : IPAddress)
    (ht : req.type = 1) :
    let p := sealedPacket ip udp req.toBytes a
    outputs 0 (RegRep.push ha p).2 ++ outputs 1 (RegRep.push ha p).2 =
      [sealedPacket (RegRep.replyIp ip) (RegRep.rawUdp udp)
        (RegRep.replyHeader (RegRep.checkAcceptable ha p) req).toBytes ip.ipSrc] := by
  dsimp only
  rw [RegRep.push_request ha ip udp req a ht]
  by_cases hc : req.homeAddress = req.careOfAddress
  · simp only [if_pos hc]
    rfl
  · simp only [if_neg hc]
    rfl

def World.icmpAt (w : World) (i : ℕ) : Option Packet :=
  match w.net[i]? with
  | some (.icmp p) => some p
  | _ => none

/-- What is in flight after a step: the messages that were, but for one that was delivered or lost,
and what the parties have sent. -/
theorem carries_transition (ok : RegrepH → Prop) (hok : ∀ rep : RegrepH, ¬ (rep.code = 0 ∨ rep.code = 1) → ok rep)
    {es : List Event} {relay : Relay} {w : World} {i : Input} {w' : World} {new : List Event}
    (ht : Transition relay w i w' new) (hnet : ∀ m ∈ w.net, Carries ok (es ++ new) m)
    (hicmp : ∀ j rand ether, i = .toRelay j rand ether →
      ∀ p ∈ w.icmpAt j, feignsAcceptance w.fa p → ∀ rep, ok rep)
    (hhome : ∀ p, Message.request p ∈ w.net → new = homeEvents w.ha p →
      ∀ q ∈ outputs 0 (RegRep.push w.ha p).2 ++ outputs 1 (RegRep.push w.ha p).2,
        Carries ok (es ++ new) (.reply q)) :
    ∀ m ∈ w'.net, Carries ok (es ++ new) m := by
  have hrest (j : ℕ) : ∀ m ∈ w.net.eraseIdx j, Carries ok (es ++ new) m :=
    fun m hm => hnet m (List.mem_of_mem_eraseIdx hm)
  -- what the node sends to an advertisement, as an input or by its timer
  have hsent (mn : MNInfo) (draw : Draw) (adv : Packet)
      (hnew : new = (outputs 0 (RegReq.push mn draw adv).2).map requestedEvent) :
      ∀ m ∈ w.net ++ (outputs 0 (RegReq.push mn draw adv).2).map .request, Carries ok (es ++ new) m := by
    intro m hm
    rcases List.mem_append.mp hm with hm | hm
    · exact hnet m hm
    · obtain ⟨p, hp, rfl⟩ := List.mem_map.mp hm
      rw [hnew]
      exact carries_advertise ok es mn draw adv p hp
  cases ht with
  | idle | store | tickRequests => exact hnet
  | advertise draw adv => exact hsent w.mn draw adv rfl
  | toRelay j rand ether m hm =>
    obtain ⟨hrequests, hreplies, -⟩ := carries_toRelay ok hok (es ++ []) relay w.fa rand ether m
      (hnet m (List.mem_of_getElem? hm))
      (fun p hp => hicmp j rand ether rfl p (by rw [hp] at hm; simp [World.icmpAt, hm]))
    intro m' hm'
    simp only [toRelay, List.mem_append, List.mem_map] at hm'
    rcases hm' with hm' | ⟨p, hp, rfl⟩ | ⟨p, hp, rfl⟩
    · exact hrest j m' hm'
    · exact hrequests p hp
    · exact hreplies p hp
  | toHome j p hm =>
    intro m' hm'
    simp only [toHome, List.mem_append, List.mem_map] at hm'
    rcases hm' with hm' | ⟨q, hq, rfl⟩
    · exact hrest j m' hm'
    · exact hhome p (List.mem_of_getElem? hm) rfl q (List.mem_append.mpr hq)
  | toNode j p hm => exact hrest j
  | lose j => exact hrest j
  | unreachable j p q hm hq =>
    intro m' hm'
    rcases List.mem_append.mp hm' with hm' | hm'
    · exact hnet m' hm'
    · rw [List.mem_singleton.mp hm']
      exact hq.1
  | tickNode draw =>
    unfold tickNode at hnet hsent ⊢
    by_cases htimer : w.node.timer = true
    · rw [if_pos htimer] at hnet hsent ⊢
      rcases RegNode.runTimer_cases w.node w.mn draw with ⟨mn', hr, -⟩ | ⟨adv, conn, -, hr⟩
      · rw [hr] at hnet hsent ⊢
        simpa [sendRequests] using hnet
      · rw [hr] at hnet hsent ⊢
        exact hsent _ draw adv rfl
    · rw [if_neg htimer] at hnet hsent ⊢
      exact hnet
  | tickRelay =>
    intro m' hm'
    rcases List.mem_append.mp hm' with hm' | hm'
    · exact hnet m' hm'
    · obtain ⟨p, hp, rfl⟩ := List.mem_map.mp hm'
      exact carries_tickRelay ok hok (es ++ []) w.fa p hp

/-- What `RegRep` answers to a genuine request is genuine. -/
theorem genuine_toHome (es : List Event) (p : Packet) (hm : Genuine es (.request p)) (ha : HA) :
    ∀ q ∈ outputs 0 (RegRep.push ha p).2 ++ outputs 1 (RegRep.push ha p).2,
      Genuine (es ++ homeEvents ha p) (.reply q) := by
  obtain ⟨ip, udp, req, a, dest, rfl, hl, hproto, ht, hreq⟩ := hm
  let p := sealedPacket ip udp req.toBytes a
  let code := RegRep.checkAcceptable ha p
  have hrequest : RegRep.request p = req := RegreqH.ofBytes_only req
  intro q hq
  rw [outputs_toHome ha ip udp req a ht, List.mem_singleton] at hq
  rw [hq]
  refine carries_reply _ _ (RegRep.replyIp ip) (RegRep.rawUdp udp) (RegRep.replyHeader code req)
    ip.ipSrc rfl rfl ?_
  intro hcode
  have haccept : RegRep.accepts ha p := by
    have hlt : code < 256 := RegRep.checkAcceptable_lt ha p
    refine ⟨by rw [hrequest]; exact ht, ?_⟩
    -- the verdict survives the conversion to a byte
    change UInt8.ofNat code = 0 ∨ UInt8.ofNat code = 1 at hcode
    change code = 0 ∨ code = 1
    rw [← UInt8.toNat_inj, ← UInt8.toNat_inj, UInt8.toNat_ofNat', Nat.mod_eq_of_lt hlt] at hcode
    exact hcode
  -- it is backed by the request itself
  refine ⟨req, dest, List.mem_append_left _ hreq, rfl, ?_⟩
  by_cases hd : req.homeAddress = req.careOfAddress
  · exact Or.inl hd
  · have hb := bound_mem_homeEvents ha p haccept (by rw [hrequest]; exact hd)
    rw [hrequest] at hb
    exact Or.inr (List.mem_append_right _ hb)

def Event.lowId : Event → Option UInt32
  | .requested req _ => some req.identification.toUInt32
  | _ => none

/-- Where `_connected` is set, a pending request was matched whose source is not the
gateway. -/
theorem setsConnected_reply (node : RegNode) (mn : MNInfo) (ip : ClickIp) (udp : ClickUdp)
    (rep : RegrepH) (a : IPAddress) (hl : ip.ipHl = 5)
    (h : setsConnected node mn (sealedPacket ip udp rep.toBytes a)) :
    (rep.code = 0 ∨ rep.code = 1) ∧ ip.ipSrc ≠ mn.gateway ∧
      ∃ r ∈ mn.pending, r.dest = ip.ipSrc ∧ r.id = rep.identification.toUInt32 := by
  unfold setsConnected at h
  rw [RegNode.push_reply node _ ip udp rep a hl] at h
  dsimp only at h
  cases hf : firstMatch (RegNode.answers ip udp) mn.pending with
  | none => simp [hf] at h
  | some x =>
    obtain ⟨i, r⟩ := x
    obtain ⟨pre, post, hp, -, hans, -⟩ := firstMatch_split _ mn.pending i r hf
    have hdest : r.dest = ip.ipSrc := ((RegNode.answers_iff ip udp r).mp hans).1
    have hmem : r ∈ mn.pending := by
      rw [hp]
      simp
    rw [hf] at h
    dsimp only at h
    -- the other branches leave the flag as it was, and it was cleared
    split_ifs at h with hid hcode hsrc
    · exact ⟨hcode, hsrc, r, hmem, hdest, (not_not.mp hid).symm⟩

/-- A reply on which the mobile node connects answers a request whose binding was added. -/
theorem bound_of_setsConnected {gateway : IPAddress} {es : List Event} {mn : MNInfo}
    {net : List Message} (h : Consistent gateway es mn.pending net) (hg : mn.gateway = gateway)
    (hids : (es.filterMap Event.lowId).Nodup) (node : RegNode) (p : Packet) (hp : Message.reply p ∈ net)
    (hset : setsConnected node mn p) :
    ∃ req, Event.bound req ∈ es ∧ req.identification =
      (RegrepH.ofBytes (p.data.drop (sizeofClickIp+sizeofClickUdp))).identification := by
  obtain ⟨ip, udp, rep, a, rfl, hl, hproto, hbacked⟩ := h.net _ hp
  obtain ⟨hcode, hsrc, r, hr, hdest, hid⟩ := setsConnected_reply node mn ip udp rep a hl hset
  obtain ⟨req, dest, hreq, hreqid, hor⟩ := hbacked hcode
  rw [payload_sealedPacket, RegrepH.ofBytes_only]
  rcases hor with hd | hb
  · -- the pending request has the same identification, so it is the deregistration itself
    obtain ⟨req', hreq', hid'⟩ := h.pending r hr
    have hlow : req'.identification.toUInt32 = req.identification.toUInt32 := by
      rw [hid', hid, hreqid]
    have heq : Event.requested req dest = Event.requested req' r.dest :=
      Runs.eq_of_nodup_filterMap Event.lowId es hids _ _ hreq hreq' req.identification.toUInt32 rfl
        (congrArg some hlow)
    have hgw : r.dest = gateway := by
      rw [← (Event.requested.inj heq).2]
      exact h.issued req dest hreq hd
    exact False.elim (hsrc (by rw [← hdest, hgw, hg]))
  · exact ⟨req, hb, hreqid⟩

/-- The input is not one of the two that can make the mobile node connect wrongly: an
ICMP error that feigns an acceptance, or an offer of the home address itself. -/
def Sound (w : World) : Input → Prop
  | .advertise _ adv => ¬ RegReq.offersHome w.mn adv
  | .tickNode _ => ∀ adv ∈ w.mn.advertisements.lookup w.mn.foreignAgent,
      ¬ RegReq.offersHome w.mn adv
  | .toRelay i _ _ => ∀ p ∈ w.icmpAt i, ¬ feignsAcceptance w.fa p
  | _ => True

instance (w : World) (i : Input) : Decidable (Sound w i) :=
  match i with
  | .advertise _ adv => inferInstanceAs (Decidable (¬ RegReq.offersHome w.mn adv))
  | .tickNode _ => inferInstanceAs (Decidable (∀ adv ∈ w.mn.advertisements.lookup w.mn.foreignAgent, _))
  | .toRelay i _ _ => inferInstanceAs (Decidable (∀ p ∈ w.icmpAt i, _))
  | .store _ | .toHome _ | .toNode _ | .lose _ | .unreachable _ _ | .tickRequests | .tickRelay =>
    inferInstanceAs (Decidable True)

def Invariant (gateway : IPAddress) (es : List Event) (w : World) : Prop :=
  w.mn.gateway = gateway ∧ Consistent gateway es w.mn.pending w.net

theorem genuine_transition {gateway : IPAddress} {es : List Event} {w w' : World} {relay : Relay} {i : Input}
    {new : List Event} (h : Invariant gateway es w) (hsound : Sound w i) (ht : Transition relay w i w' new) :
    ∀ m ∈ w'.net, Genuine (es ++ new) m := by
  refine carries_transition _ (backed_of_refusal (es ++ new)) ht ?_ ?_ ?_
  · exact fun m hm => (h.2.net m hm).mono (List.subset_append_left _ _)
  · rintro j rand ether rfl p hp hfeigns
    exact absurd hfeigns (hsound p hp)
  · rintro p hp rfl
    exact genuine_toHome es p (h.2.net _ hp) w.ha

/-- Every sound step keeps the invariant. -/
theorem invariant_transition {gateway : IPAddress} {es : List Event} {w : World}
    (h : Invariant gateway es w) (relay : Relay) (i : Input) (hsound : Sound w i) (w' : World)
    (new : List Event) (ht : Transition relay w i w' new) : Invariant gateway (es ++ new) w' := by
  have hnet := genuine_transition h hsound ht
  -- most steps keep the pending requests
  have hpend : ∀ r ∈ w.mn.pending, ∃ old ∈ w.mn.pending, r.dest = old.dest ∧ r.id = old.id :=
    fun r hr => ⟨r, hr, rfl, rfl⟩
  cases ht with
  | idle | store | toRelay | lose | unreachable | tickRelay => exact ⟨h.1, h.2.quiet _ _ hpend hnet⟩
  | advertise draw adv =>
    obtain ⟨hgateway, hkeeps⟩ := h.2.advertise h.1 draw adv hsound
    exact ⟨hgateway, hkeeps _ hnet⟩
  | toHome j p hm =>
    refine ⟨h.1, h.2.next _ _ _ ?_ (fun r hr => Or.inl (hpend r hr)) hnet⟩
    intro req dest hmem
    simp only [homeEvents] at hmem
    split_ifs at hmem <;> simp at hmem
  | toNode j p hm =>
    have hframe := RegNode.push_frame w.node w.mn p
    refine ⟨hframe.1.trans h.1, h.2.next _ _ _ ?_ ?_ hnet⟩
    · intro req dest hmem
      simp only [toNode] at hmem
      split_ifs at hmem <;> simp at hmem
    · intro r hr
      exact Or.inl (hpend r (hframe.2.2.subset hr))
  | tickRequests =>
    refine ⟨h.1, h.2.quiet _ _ ?_ hnet⟩
    intro r hr
    obtain ⟨old, hold, hr⟩ := RegReq.mem_agePending _ r hr
    exact ⟨old, hold, by rw [hr], by rw [hr]⟩
  | tickNode draw =>
    unfold tickNode at hnet ⊢
    by_cases htimer : w.node.timer = true
    · rw [if_pos htimer] at hnet ⊢
      rcases RegNode.runTimer_cases w.node w.mn draw with ⟨mn', hr, hp, hg, -⟩ | ⟨adv, conn, hadv, hr⟩
      · rw [hr] at hnet ⊢
        refine ⟨hg.trans h.1, h.2.quiet mn'.pending _ ?_ hnet⟩
        rw [hp]
        exact hpend
      · -- the timer counts down, and `RegReq` takes the stored advertisement
        rw [hr] at hnet ⊢
        have hold : Consistent gateway es { w.mn with lifetime := w.mn.lifetime-1 }.pending w.net := h.2
        obtain ⟨hgateway, hkeeps⟩ := hold.advertise h.1 draw adv (hsound adv hadv)
        exact ⟨hgateway, hkeeps _ hnet⟩
    · rw [if_neg htimer] at hnet ⊢
      exact ⟨h.1, h.2.quiet _ _ hpend hnet⟩

/-- A connection is preceded by the addition of the binding of a request that has the
identification of the reply. -/
def Grounded (before : List Event) : Event → Prop
  | .connected identification => ∃ req, Event.bound req ∈ before ∧ req.identification = identification
  | _ => True

/-- Only `RegNode` reports connections, and in a consistent world they are grounded. -/
theorem grounded_transition {gateway : IPAddress} {es : List Event} {w : World}
    (h : Runs.Preceded Grounded es) (hinv : Invariant gateway es w)
    (hids : (es.filterMap Event.lowId).Nodup) (relay : Relay) (i : Input) (w' : World)
    (new : List Event) (ht : Transition relay w i w' new) : Runs.Preceded Grounded (es ++ new) := by
  -- a request is not a connection, so nothing need precede it
  have hsent : ∀ (sent : List Packet), ∀ e ∈ sent.map requestedEvent, ∀ before, Grounded before e := by
    intro sent e he before
    obtain ⟨p, -, rfl⟩ := List.mem_map.mp he
    trivial
  cases ht with
  | toNode j p hm =>
    have hp : Message.reply p ∈ w.net := List.mem_of_getElem? hm
    unfold toNode
    dsimp only
    split_ifs with hset
    · exact h.concat _ (bound_of_setsConnected hinv.2 hinv.1 hids w.node p hp hset)
    · rw [List.append_nil]
      exact h
  | toHome j p hm =>
    apply h.append
    intro e he before
    simp only [homeEvents] at he
    split_ifs at he
    · rcases List.mem_pair.mp he with rfl | rfl <;> trivial
    · rw [List.mem_singleton.mp he]
      trivial
    · simp at he
  | advertise draw adv => exact h.append _ (hsent _)
  | tickNode draw =>
    unfold tickNode
    split_ifs
    · exact h.append _ (hsent _)
    · rw [List.append_nil]
      exact h
  | idle | store | toRelay | lose | unreachable | tickRequests | tickRelay =>
    rw [List.append_nil]
    exact h

theorem grounded_run (c : Config) (inputs : List Input)
    (hids : ((events c inputs).filterMap Event.lowId).Nodup)
    (hsound : Runs.Meets (step c.relay) Sound (start c) inputs) :
    Runs.Preceded Grounded (events c inputs) := by
  have hrun := Runs.guarded_history_invariant (step c.relay) Sound (start c)
    (fun _ es w => Invariant c.gateway es w ∧
      ((es.filterMap Event.lowId).Nodup → Runs.Preceded Grounded es)) ?_ ?_ inputs hsound
  · exact hrun.2 hids
  · refine ⟨⟨rfl, ⟨by simp, ?_, ?_⟩⟩, fun _ => Runs.preceded_nil Grounded⟩
    · simp [start, MNInfo.configure]
    · simp [start]
  · rintro inputs i hguard ⟨hinv, hpre⟩
    have ht := step_transition c.relay (Runs.final (step c.relay) (start c) inputs) i
    refine ⟨invariant_transition hinv c.relay i hguard _ _ ht, ?_⟩
    intro hnodup
    -- identifications that differ in the longer run differ in the shorter one
    have hold : ((Runs.trace (step c.relay) (start c) inputs).filterMap Event.lowId).Nodup := by
      rw [List.filterMap_append] at hnodup
      exact hnodup.of_append_left
    exact grounded_transition (hpre hold) hinv hold c.relay i _ _ ht

/-- No false registration. In a run whose requests can be told apart by the low halves
of their identifications and whose inputs are sound, the mobile node connects only
after the home agent has accepted the request and added its binding. -/
theorem connected_only_if_bound (c : Config) (inputs : List Input)
    (hids : ((events c inputs).filterMap Event.lowId).Nodup)
    (hsound : Runs.Meets (step c.relay) Sound (start c) inputs)
    (before after : List Event) (identification : UInt64)
    (h : events c inputs = before ++ .connected identification :: after) :
    ∃ req, Event.bound req ∈ before ∧ req.identification = identification :=
  grounded_run c inputs hids hsound before _ after h

theorem connected_only_if_bound_deployed :
    ∃ before, events Deployment.config (Deployment.registrationRun ⟨4711, 1⟩) =
        before ++ .connected 1 :: [] ∧
      ∃ req, Event.bound req ∈ before ∧ req.identification = 1 := by
  have h : events Deployment.config (Deployment.registrationRun ⟨4711, 1⟩) =
      (events Deployment.config (Deployment.registrationRun ⟨4711, 1⟩)).dropLast ++
        .connected 1 :: [] := by decide +kernel
  exact ⟨_, h, connected_only_if_bound Deployment.config (Deployment.registrationRun ⟨4711, 1⟩)
    (by decide +kernel) (by decide +kernel) _ [] 1 h⟩

/-- An ICMP host-unreachable makes the mobile node connect, though the home agent has
never received the request. -/
theorem connected_without_binding :
    let es := events Deployment.config (Deployment.unreachableRun ⟨4711, 1⟩)
    (es.filterMap Event.lowId).Nodup ∧
      ∃ before after identification, es = before ++ .connected identification :: after ∧
        ¬ ∃ req, Event.bound req ∈ before ∧ req.identification = identification := by
  intro es
  let req := RegReq.requestHeader Deployment.info ⟨4711, 1⟩ 100 Deployment.foreignAgentPublicAddress
  have hes : es = [.requested req Deployment.foreignAgentPrivateAddress] ++ .connected 1 :: [] := by
    decide +kernel
  refine ⟨by decide +kernel, _, _, _, hes, ?_⟩
  rintro ⟨req', hreq', -⟩
  simp at hreq'

end Network

end MobileIP
