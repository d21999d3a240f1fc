import MobileIP.Network
import MobileIP.RelayRuns
import Mathlib.Data.List.Chain

/-! What the foreign agent does with an ICMP destination-unreachable. The loop of
`Relay::push` erases and advances at once, and the reply is not given the code that was
computed for it. -/
namespace MobileIP

open LittleEndian VectorSearch

namespace Relay

/-- The variable `error` of `Relay::push`: the denial code for an ICMP code. -/
def error (code : UInt8) : UInt8 :=
  if code = 0 then 80
  else if code = 1 then 81
  else if code = 3 then 82
  else 88

theorem error_eq_self_iff (code : UInt8) : error code = code ↔ code = 88 := by
  unfold error
  split_ifs with h0 h1 h3
  · rw [h0]
    decide
  · rw [h1]
    decide
  · rw [h3]
    decide
  · exact eq_comm

/-- No two adjacent pending requests are for the home agent `a`. -/
def NoneAdjacent (a : IPAddress) (l : List VEntry) : Prop :=
  l.IsChain (fun e f => ¬ (e.homeAgent = a ∧ f.homeAgent = a))

instance (a : IPAddress) (l : List VEntry) : Decidable (NoneAdjacent a l) :=
  inferInstanceAs (Decidable (l.IsChain _))

theorem eraseUnreachable_eq_filter (a : IPAddress) (l : List VEntry) (h : NoneAdjacent a l) :
    eraseUnreachable a l =
      (l.filter (fun e => e.homeAgent != a), l.filter (fun e => e.homeAgent == a)) := by
  fun_induction eraseUnreachable a l with
  | case1 => rfl
  | case2 e he => simp [he]
  | case3 e he => simp [he]
  | case4 e f rest he r ih =>
    -- the entry behind the erased one is not examined, and need not be
    obtain ⟨hef, hrest⟩ := List.isChain_cons_cons.mp h
    have hf : ¬ f.homeAgent = a := fun hf => hef ⟨he, hf⟩
    have hr := ih (List.isChain_of_isChain_cons hrest)
    simp [r, hr, he, hf]
  | case5 e f rest he r ih =>
    have hr := ih (List.isChain_of_isChain_cons h)
    have hkeep : (e :: f :: rest).filter (fun e => e.homeAgent != a) =
        e :: (f :: rest).filter (fun e => e.homeAgent != a) :=
      List.filter_cons_of_pos (by simpa using he)
    have hdeny : (e :: f :: rest).filter (fun e => e.homeAgent == a) =
        (f :: rest).filter (fun e => e.homeAgent == a) :=
      List.filter_cons_of_neg (by simpa using he)
    rw [hkeep, hdeny]
    simp only [r, hr]

theorem noneAdjacent_of_eraseUnreachable (a : IPAddress) (l : List VEntry)
    (h : (eraseUnreachable a l).1 = l.filter (fun e => e.homeAgent != a)) : NoneAdjacent a l := by
  fun_induction eraseUnreachable a l with
  | case1 => exact .nil
  | case2 e he => exact .singleton e
  | case3 e he => exact .singleton e
  | case4 e f rest he r ih =>
    -- `f` stays, so it is for another home agent
    rw [List.filter_cons_of_neg (by simpa using he)] at h
    have hf : ¬ f.homeAgent = a := by
      intro hf
      have hmem : f ∈ (f :: rest).filter (fun e => e.homeAgent != a) := by
        rw [← h]
        exact List.mem_cons_self
      simpa [hf] using (List.mem_filter.mp hmem).2
    rw [List.filter_cons_of_pos (by simpa using hf)] at h
    have hrest := ih (List.cons.inj h).2
    refine List.isChain_cons_cons.mpr ⟨fun hef => hf hef.2, List.isChain_cons.mpr ⟨?_, hrest⟩⟩
    intro g _ hfg
    exact hf hfg.1
  | case5 e f rest he r ih =>
    rw [List.filter_cons_of_pos (by simpa using he)] at h
    have hrest := ih (List.cons.inj h).2
    exact List.isChain_cons_cons.mpr ⟨fun hef => he hef.1, hrest⟩

variable (relay : Relay) (fa : FA) (rand : ℕ) (p : Packet)

/-- The pending requests for the quoted home agent are denied in order and removed, with
the denial code that belongs to the ICMP code. -/
def HandlesUnreachable : Prop :=
  let a := (origip p).ipDst
  let r := push relay fa rand p
  r.1 = { fa with requests := fa.requests.filter (fun e => e.homeAgent != a) } ∧
    (outputs 0 r.2).map addressed = (fa.requests.filter (fun e => e.homeAgent == a)).map
      (fun e => (e.ipSrc, e.udpSrc, e.id, error (icmph p).icmpCode))

instance : Decidable (HandlesUnreachable relay fa rand p) := inferInstanceAs (Decidable (_ ∧ _))

theorem push_unreachable (hp : (ip p).ipP = 1) (ht : (icmph p).icmpType = 3) :
    (push relay fa rand p).1 =
        { fa with requests := (eraseUnreachable (origip p).ipDst fa.requests).1 } ∧
      (outputs 0 (push relay fa rand p).2).map addressed =
        (eraseUnreachable (origip p).ipDst fa.requests).2.map
          (fun e => (e.ipSrc, e.udpSrc, e.id, (icmph p).icmpCode)) := by
  have hpush : push relay fa rand p = pushIcmp fa p := if_pos hp
  rw [hpush]
  unfold pushIcmp
  rw [if_pos ht]
  dsimp only
  rw [outputs_map_emit, List.map_map]
  refine ⟨rfl, List.map_congr_left ?_⟩
  intro e _
  exact addressed_createRep _ _ _ _ _ _

/-- Handling an error rightly leaves no request unexamined, and the first denial shows
whether its code is the right one. -/
theorem code_of_handlesUnreachable (hp : (ip p).ipP = 1) (ht : (icmph p).icmpType = 3)
    (h : HandlesUnreachable relay fa rand p) :
    NoneAdjacent (origip p).ipDst fa.requests ∧
      ((∀ e ∈ fa.requests, e.homeAgent ≠ (origip p).ipDst) ∨ (icmph p).icmpCode = 88) := by
  let a := (origip p).ipDst
  obtain ⟨htables, hout⟩ := push_unreachable relay fa rand p hp ht
  unfold HandlesUnreachable at h
  dsimp only at h
  rw [htables, hout] at h
  obtain ⟨hreq, hrep⟩ := h
  have hchain := noneAdjacent_of_eraseUnreachable a fa.requests (congrArg FA.requests hreq)
  rw [eraseUnreachable_eq_filter _ _ hchain] at hrep
  dsimp only at hrep
  refine ⟨hchain, ?_⟩
  cases hdenied : fa.requests.filter (fun e => e.homeAgent == a) with
  | nil =>
    left
    intro e he
    simpa using List.filter_eq_nil_iff.mp hdenied e he
  | cons e denied =>
    right
    rw [hdenied, List.map_cons, List.map_cons] at hrep
    have hcode : (icmph p).icmpCode = error (icmph p).icmpCode := by
      have hhead := (List.cons.inj hrep).1
      simp only [Prod.mk.injEq, true_and] at hhead
      exact hhead
    exact (error_eq_self_iff _).mp hcode.symm

/-- An ICMP destination-unreachable is handled as it should be exactly if it concerns no
pending request, or if its code is 88, which is its own denial code, and the requests that
it concerns are not adjacent. -/
theorem handles_unreachable_iff (hp : (ip p).ipP = 1) (ht : (icmph p).icmpType = 3) :
    HandlesUnreachable relay fa rand p ↔
      (∀ e ∈ fa.requests, e.homeAgent ≠ (origip p).ipDst) ∨
        ((icmph p).icmpCode = 88 ∧ NoneAdjacent (origip p).ipDst fa.requests) := by
  let a := (origip p).ipDst
  obtain ⟨htables, hout⟩ := push_unreachable relay fa rand p hp ht
  constructor
  · intro h
    obtain ⟨hchain, hcode⟩ := code_of_handlesUnreachable relay fa rand p hp ht h
    exact hcode.imp id (fun hc => ⟨hc, hchain⟩)
  · intro h
    unfold HandlesUnreachable
    dsimp only
    rw [htables, hout]
    rcases h with hnone | ⟨hcode, hchain⟩
    · have hchain : NoneAdjacent a fa.requests := by
        refine List.Pairwise.isChain (List.pairwise_of_forall_mem_list ?_)
        exact fun e he f _ hef => hnone e he hef.1
      have hdenied : fa.requests.filter (fun e => e.homeAgent == a) = [] := by
        rw [List.filter_eq_nil_iff]
        intro e he
        simpa using hnone e he
      rw [eraseUnreachable_eq_filter _ _ hchain]
      dsimp only
      rw [hdenied]
      exact ⟨rfl, rfl⟩
    · rw [eraseUnreachable_eq_filter _ _ hchain, (error_eq_self_iff _).mpr hcode]
      exact ⟨rfl, rfl⟩

end Relay

namespace Deployment

/-- The foreign agent with the requests of two mobile nodes pending at one home agent, one
request for another home agent between them. -/
def threePending : FA :=
  { foreignAgent with
    requests := [Relay.pendingEntry (requestFrame mobileNodeAddress ⟨1, 1⟩),
      { Relay.pendingEntry (requestFrame mobileNodeAddress ⟨2, 2⟩) with
        homeAgent := ipv4 192 168 0 9 },
      Relay.pendingEntry (requestFrame (ipv4 192 168 2 2) ⟨3, 3⟩)] }

/-- The ICMP error about the relayed request, as the foreign agent receives it. -/
def unreachableFrame (code : UInt8) : Packet :=
  (unreachable code (Relay.relayedRequest foreignAgent 7
    (requestFrame mobileNodeAddress ⟨1, 1⟩)).strip).frame (default : Ether).bytes

end Deployment

theorem Relay.handles_unreachable_code_88 :
    Relay.HandlesUnreachable Deployment.relay Deployment.threePending 0
      (Deployment.unreachableFrame 88) :=
  (Relay.handles_unreachable_iff _ _ _ _ (by decide +kernel) (by decide +kernel)).mpr
    (Or.inr ⟨by decide +kernel, by decide +kernel⟩)

/-- A host-unreachable is answered with code 1, which accepts, and not with code 81. -/
theorem Relay.mishandles_host_unreachable :
    ¬ Relay.HandlesUnreachable Deployment.relay Deployment.threePending 0
      (Deployment.unreachableFrame 1) := by
  decide +kernel

end MobileIP
