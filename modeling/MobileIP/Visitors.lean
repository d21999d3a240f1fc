import MobileIP.ForeignAgent
import Mathlib.Data.List.Nodup

/-! What one step of the foreign agent can do to its two tables. Every result about
its runs is derived from the transitions listed in `Relay.Transition`. -/
namespace MobileIP

open LittleEndian VectorSearch

namespace Relay

def acceptedPair (entry : VEntry) (rep : RegrepH) : IPAddress × VEntry :=
  (rep.homeAddress, { entry with remainingLifetime := rep.lifetime })

/-- A reply that accepts a registration for a positive lifetime. -/
def grants (rep : RegrepH) : Prop :=
  (rep.code = 0 ∨ rep.code = 1) ∧ ntohs rep.lifetime ≠ 0

instance (rep : RegrepH) : Decidable (grants rep) := inferInstanceAs (Decidable (_ ∧ _))

/-- A granted registration is appended, or overwrites one with the same key. -/
theorem updateRegistrations_grants (regs : List (IPAddress × VEntry)) (entry : VEntry)
    (rep : RegrepH) (h : grants rep) :
    ((∀ reg ∈ regs, reg.1 ≠ rep.homeAddress) ∧
      updateRegistrations regs entry rep = regs ++ [acceptedPair entry rep]) ∨
    ∃ pre old post, regs = pre ++ old :: post ∧ old.1 = rep.homeAddress ∧
      updateRegistrations regs entry rep = pre ++ acceptedPair entry rep :: post := by
  unfold updateRegistrations
  rw [if_pos h.1, if_pos h.2]
  cases hi : lastIndex (fun reg => reg.1 == rep.homeAddress) regs with
  | none =>
    refine Or.inl ⟨?_, rfl⟩
    intro reg hreg
    simpa using (lastIndex_eq_none_iff _ regs).mp hi reg hreg
  | some i =>
    obtain ⟨pre, old, post, rfl, rfl, hold⟩ := lastIndex_split _ regs i hi
    exact Or.inr ⟨pre, old, post, rfl, by simpa using hold, set_split pre post old _⟩

theorem updateRegistrations_not_grants (regs : List (IPAddress × VEntry)) (entry : VEntry)
    (rep : RegrepH) (h : ¬ grants rep) :
    (updateRegistrations regs entry rep).Sublist regs := by
  -- a zero lifetime erases one registration, a refusal none
  unfold updateRegistrations
  split_ifs with hc hl
  · exact False.elim (h ⟨hc, hl⟩)
  · exact List.eraseIdx_sublist _ _
  · exact List.Sublist.refl regs

theorem nodup_updateRegistrations (regs : List (IPAddress × VEntry)) (entry : VEntry)
    (rep : RegrepH) (hn : (regs.map Prod.fst).Nodup) :
    ((updateRegistrations regs entry rep).map Prod.fst).Nodup := by
  by_cases h : grants rep
  · rcases updateRegistrations_grants regs entry rep h with ⟨hnew, he⟩ | ⟨pre, old, post, rfl, hk, he⟩
    · rw [he, List.map_append, List.nodup_append]
      refine ⟨hn, by simp, ?_⟩
      intro a ha b hb
      obtain ⟨reg, hreg, rfl⟩ := List.mem_map.mp ha
      have hb' : b = rep.homeAddress := by simpa [acceptedPair] using hb
      rw [hb']
      exact hnew reg hreg
    · rw [he]
      simpa [acceptedPair, hk] using hn
  · exact hn.sublist ((updateRegistrations_not_grants regs entry rep h).map Prod.fst)

theorem mem_updateRegistrations_grants (regs : List (IPAddress × VEntry)) (entry : VEntry)
    (rep : RegrepH) (h : grants rep) :
    acceptedPair entry rep ∈ updateRegistrations regs entry rep := by
  rcases updateRegistrations_grants regs entry rep h with ⟨-, he⟩ | ⟨pre, old, post, -, -, he⟩
  · simp [he]
  · simp [he]

theorem mem_updateRegistrations (regs : List (IPAddress × VEntry)) (entry : VEntry)
    (rep : RegrepH) (reg : IPAddress × VEntry) (hm : reg ∈ updateRegistrations regs entry rep) :
    reg ∈ regs ∨ (grants rep ∧ reg = acceptedPair entry rep) := by
  by_cases h : grants rep
  · rcases updateRegistrations_grants regs entry rep h with ⟨-, he⟩ | ⟨pre, old, post, rfl, -, he⟩
    · rw [he, List.mem_append, List.mem_singleton] at hm
      exact hm.imp id (fun hr => ⟨h, hr⟩)
    · rw [he, List.mem_append, List.mem_cons] at hm
      rcases hm with hm | hm | hm
      · exact Or.inl (by simp [hm])
      · exact Or.inr ⟨h, hm⟩
      · exact Or.inl (by simp [hm])
  · exact Or.inl ((updateRegistrations_not_grants regs entry rep h).subset hm)

theorem mem_eraseUnreachable (ha : IPAddress) (l : List VEntry) (e : VEntry)
    (h : e ∈ (eraseUnreachable ha l).2) : e ∈ l ∧ e.homeAgent = ha := by
  -- the recursion examines `x`, keeps `y` unexamined behind an erased `x`, and goes on
  fun_induction eraseUnreachable ha l with
  | case1 => simp at h
  | case2 x hx =>
    rw [List.mem_singleton.mp h]
    exact ⟨List.mem_singleton_self x, hx⟩
  | case3 x hx => simp at h
  | case4 x y rest hx r ih =>
    rcases List.mem_cons.mp h with rfl | h
    · exact ⟨List.mem_cons_self, hx⟩
    · exact ⟨List.mem_cons_of_mem _ (List.mem_cons_of_mem _ (ih h).1), (ih h).2⟩
  | case5 x y rest hx r ih => exact ⟨List.mem_cons_of_mem _ (ih h).1, (ih h).2⟩

/-- What reaches the relay: a packet, with the `rand()` that it may draw, or its timer. -/
inductive Input where
  | packet (rand : ℕ) (p : Packet)
  | tick
  deriving DecidableEq, Repr

def step (relay : Relay) (fa : FA) : Input → FA × List Action
  | .packet rand p => push relay fa rand p
  | .tick => runTimer fa

def callsRelayReq (p : Packet) : Prop :=
  (ip p).ipP ≠ 1 ∧
    p.data.length-sizeofClickEther = sizeofClickIp+sizeofClickUdp+sizeofRegreqH

instance (p : Packet) : Decidable (callsRelayReq p) := inferInstanceAs (Decidable (_ ∧ _))

def callsRelayRep (p : Packet) : Prop :=
  (ip p).ipP ≠ 1 ∧
    p.data.length-sizeofClickEther = sizeofClickIp+sizeofClickUdp+sizeofRegrepH

instance (p : Packet) : Decidable (callsRelayRep p) := inferInstanceAs (Decidable (_ ∧ _))

theorem length_take_ether (p : Packet) (h : 0 < p.data.length-sizeofClickEther) :
    (p.data.take sizeofClickEther).length = sizeofClickEther := by
  rw [List.length_take]
  omega

theorem relayedReply_data (relay : Relay) (p : Packet) (udpDst : UInt16) (h : callsRelayRep p) :
    let rip : ClickIp := { ip p with ipSrc := relay.privateIP, ipDst := (reph p).homeAddress }
    let rudp : ClickUdp := { udp p with uhDport := htons udpDst }
    (relayedReply relay p udpDst).data = sealedData rip rudp (payload p) := by
  -- the frame is longer than the Ethernet header that is pulled
  have hlen : 0 < p.data.length-sizeofClickEther := by
    rw [h.2]
    decide
  exact List.drop_left' (length_take_ether p hlen)

def admits (relay : Relay) (fa : FA) (p : Packet) : Prop :=
  callsRelayReq p ∧ badUdpChecksum (iph p) = false ∧ rejectCode relay fa (reqh p).flags = none

instance (relay : Relay) (fa : FA) (p : Packet) : Decidable (admits relay fa p) :=
  inferInstanceAs (Decidable (_ ∧ _ ∧ _))

/-- The transitions of the foreign agent: the input, the tables after it and the
packets sent to output 0, which all go to mobile nodes. -/
inductive Transition (relay : Relay) (fa : FA) : Input → FA → List Packet → Prop where
  | idle (i : Input) : Transition relay fa i fa []
  | refused (rand : ℕ) (p : Packet) (code : UInt8) (h : callsRelayReq p) :
      Transition relay fa (.packet rand p) fa
        [createRep code (ip p).ipDst (ip p).ipSrc (udp p).uhSport
          (reqh p).identification.toUInt16.toUInt64 (reqh p).homeAgent]
  | admitted (rand : ℕ) (p : Packet) (h : admits relay fa p) :
      Transition relay fa (.packet rand p) { fa with requests := fa.requests ++ [pendingEntry p] } []
  | reply (rand : ℕ) (p : Packet) (pre post : List VEntry) (entry : VEntry) (h : callsRelayRep p)
      (hsum : badUdpChecksum (iph p) = false) (hreq : fa.requests = pre ++ entry :: post)
      (he : entry.ipSrc = (reph p).homeAddress)
      (hpre : ∀ e ∈ pre, e.ipSrc ≠ (reph p).homeAddress) :
      Transition relay fa (.packet rand p)
        { fa with
          registrations := updateRegistrations fa.registrations entry (reph p)
          requests := pre ++ post }
        [relayedReply relay p (post.headD entry).udpSrc]
  | unreachable (rand : ℕ) (p : Packet) (code : UInt8) (ha : IPAddress) :
      Transition relay fa (.packet rand p)
        { fa with requests := (eraseUnreachable ha fa.requests).1 }
        ((eraseUnreachable ha fa.requests).2.map (unreachableRep code ha))
  | tick : Transition relay fa .tick
      { fa with
        registrations := ageRegistrations fa.registrations
        requests := (ageRequests fa.requests).1 }
      ((ageRequests fa.requests).2.toList.map timeoutRep)

theorem outputs_map_emit {α : Type*} (f : α → Packet) (l : List α) :
    outputs 0 (l.map (fun a => Action.emit 0 (f a))) = l.map f := by
  induction l with
  | nil => rfl
  | cons a l ih =>
    rw [List.map_cons, List.map_cons, ← ih]
    rfl

theorem staleEntry_split (pre post : List VEntry) (entry : VEntry) :
    staleEntry (pre ++ entry :: post) pre.length entry = post.headD entry := by
  rw [staleEntry, List.getD_eq_getElem?_getD, List.getElem?_append_right (by omega)]
  cases post <;> simp

theorem pushIcmp_transition (relay : Relay) (fa : FA) (rand : ℕ) (p : Packet) :
    Transition relay fa (.packet rand p) (pushIcmp fa p).1 (outputs 0 (pushIcmp fa p).2) := by
  unfold pushIcmp
  dsimp only
  split_ifs
  · rw [outputs_map_emit]
    exact Transition.unreachable rand p _ _
  · exact Transition.idle _

theorem relayReq_transition (relay : Relay) (fa : FA) (rand : ℕ) (p : Packet)
    (h : callsRelayReq p) :
    Transition relay fa (.packet rand p) (relayReq relay fa rand p).1
      (outputs 0 (relayReq relay fa rand p).2) := by
  unfold relayReq
  by_cases hsum : badUdpChecksum (iph p) = true
  · rw [if_pos hsum]
    exact Transition.idle _
  · rw [if_neg hsum]
    cases hc : rejectCode relay fa (reqh p).flags with
    | some code => exact Transition.refused rand p code h
    | none => exact Transition.admitted rand p ⟨h, by simpa using hsum, hc⟩

theorem relayRep_transition (relay : Relay) (fa : FA) (rand : ℕ) (p : Packet)
    (h : callsRelayRep p) :
    Transition relay fa (.packet rand p) (relayRep relay fa p).1
      (outputs 0 (relayRep relay fa p).2) := by
  unfold relayRep
  by_cases hsum : badUdpChecksum (iph p) = true
  · rw [if_pos hsum]
    exact Transition.idle _
  · rw [if_neg hsum]
    cases hm : firstMatch (fun e : VEntry => e.ipSrc == (reph p).homeAddress) fa.requests with
    | none => exact Transition.idle _
    | some r =>
      obtain ⟨i, entry⟩ := r
      obtain ⟨pre, post, hreq, rfl, he, hpre⟩ := firstMatch_split _ fa.requests i entry hm
      have ht : Transition relay fa (.packet rand p) _ _ :=
        Transition.reply rand p pre post entry h (by simpa using hsum) hreq (by simpa using he)
          (by simpa using hpre)
      dsimp only
      rw [hreq, staleEntry_split, eraseIdx_split]
      exact ht

theorem step_transition (relay : Relay) (fa : FA) (i : Input) :
    Transition relay fa i (step relay fa i).1 (outputs 0 (step relay fa i).2) := by
  cases i with
  | tick =>
    have ht : Transition relay fa .tick _ _ := Transition.tick
    rw [← outputs_map_emit] at ht
    exact ht
  | packet rand p =>
    change Transition relay fa _ (push relay fa rand p).1 (outputs 0 (push relay fa rand p).2)
    unfold push
    by_cases hip : (ip p).ipP = 1
    · rw [if_pos hip]
      exact pushIcmp_transition relay fa rand p
    · rw [if_neg hip]
      dsimp only
      split_ifs with hreq hrep
      · exact relayReq_transition relay fa rand p ⟨hip, hreq⟩
      · exact relayRep_transition relay fa rand p ⟨hip, hrep⟩
      · exact Transition.idle _

end Relay

end MobileIP
