import MobileIP.Bindings

/-! The mobile nodes share the home agent's list of bindings. What the home agent does
for one of them depends on that node's own requests only. -/
namespace MobileIP

open LittleEndian VectorSearch

namespace RegRep

/-- The packets that `RegRep` takes as requests for `home`. -/
def isFor (home : IPAddress) (q : Packet) : Bool := (request q).homeAddress == home

/-- The verdict depends on the bindings only through whether the node has one. -/
theorem checkAcceptable_congr (ha ha' : HA) (q : Packet)
    (h : ha.careOf (request q).homeAddress = ha'.careOf (request q).homeAddress) :
    checkAcceptable ha q = checkAcceptable ha' q := by
  have hfound (x : HA) :
      (firstMatch (fun mi => mi.address == (request q).homeAddress) x.mobilityBindings).isSome =
        !(x.careOf (request q).homeAddress).isEmpty := by
    have hh := congrArg Option.isSome (firstMatch_eq_head_filter
      (fun mi : MobileInfo => mi.address == (request q).homeAddress) x.mobilityBindings)
    rw [Option.isSome_map] at hh
    rw [hh, HA.careOf, List.isEmpty_map]
    cases x.mobilityBindings.filter (fun mi => mi.address == (request q).homeAddress) <;> rfl
  unfold checkAcceptable
  dsimp only
  rw [hfound ha, hfound ha', h]

/-- The reply is a function of the request and the verdict. -/
theorem push_snd_congr (ha ha' : HA) (q : Packet)
    (h : checkAcceptable ha q = checkAcceptable ha' q) : (push ha q).2 = (push ha' q).2 := by
  unfold push
  dsimp only
  rw [h]
  split_ifs <;> rfl

theorem careOf_push (ha : HA) (q : Packet) (home : IPAddress) :
    (push ha q).1.careOf home =
      if accepts ha q then visit home (ha.careOf home) (request q) else ha.careOf home := by
  rw [push_fst]
  split_ifs with h
  · exact HA.careOf_updateBindings ha (request q) home
  · rfl

theorem careOf_push_other (home : IPAddress) (ha : HA) (q : Packet) (h : isFor home q = false) :
    (push ha q).1.careOf home = ha.careOf home := by
  have hne : (request q).homeAddress ≠ home := by simpa [isFor] using h
  have hv : visit home (ha.careOf home) (request q) = ha.careOf home := if_pos hne
  rw [careOf_push, hv, ite_self]

theorem push_congr (home : IPAddress) (ha ha' : HA) (q : Packet) (hq : isFor home q = true)
    (h : ha.careOf home = ha'.careOf home) :
    (push ha q).1.careOf home = (push ha' q).1.careOf home ∧ (push ha q).2 = (push ha' q).2 := by
  have hhome : (request q).homeAddress = home := by simpa [isFor] using hq
  have hcode : checkAcceptable ha q = checkAcceptable ha' q := by
    apply checkAcceptable_congr
    rw [hhome]
    exact h
  have haccept : accepts ha q ↔ accepts ha' q := by
    unfold accepts
    rw [hcode]
  refine ⟨?_, push_snd_congr ha ha' q hcode⟩
  rw [careOf_push, careOf_push, h]
  exact if_congr haccept rfl rfl

end RegRep

/-- Mobile nodes do not interfere at the home agent. Two sequences of packets with the
same requests for `home` get the same replies to them, in full, and leave the home agent
with the same treatment of packets for `home`. -/
theorem replies_independent_of_others (a : IPAddress) (home : IPAddress) (qs qs' : List Packet)
    (h : qs.filter (RegRep.isFor home) = qs'.filter (RegRep.isFor home)) :
    let ha := RegRep.run ⟨a, []⟩ qs
    let ha' := RegRep.run ⟨a, []⟩ qs'
    Runs.answers RegRep.push (RegRep.isFor home) ⟨a, []⟩ qs =
        Runs.answers RegRep.push (RegRep.isFor home) ⟨a, []⟩ qs' ∧
      (∀ p, (ClickIp.ofBytes p.data).ipDst = home → HA.push ha p = HA.push ha' p) ∧
      Encapsulator.getDestinationIp ha home = Encapsulator.getDestinationIp ha' home := by
  intro ha ha'
  have hrun := Runs.noninterference RegRep.push (RegRep.isFor home) (fun x => x.careOf home)
    (RegRep.careOf_push_other home)
    (fun x y q hq hxy => RegRep.push_congr home x y q hq hxy) ⟨a, []⟩ qs qs' h
  have hview : ha.careOf home = ha'.careOf home := hrun.1
  refine ⟨hrun.2, ?_, ?_⟩
  · intro p hp
    rw [HA.push_eq, HA.push_eq, hp, hview]
  · rw [Encapsulator.getDestinationIp_eq, Encapsulator.getDestinationIp_eq, hview]

/-- A request of the node `home`, as the home agent receives it. -/
def Deployment.requestOf (home : IPAddress) (draw : Draw) (co : IPAddress) : Packet :=
  (RegReq.makePacket { info with homeAddress := home } draw homeAgentPublicAddress 100 co).2

theorem replies_independent_of_others_deployed :
    let home := Deployment.mobileNodeAddress
    let other := Deployment.ipv4 192 168 2 2
    let q := Deployment.requestOf home ⟨1, 1⟩ Deployment.foreignAgentPublicAddress
    let q' := Deployment.requestOf home ⟨2, 2⟩ home
    let qs := [q, Deployment.requestOf other ⟨3, 3⟩ Deployment.foreignAgentPublicAddress, q']
    let qs' := [Deployment.requestOf other ⟨4, 4⟩ other, q, q']
    Runs.answers RegRep.push (RegRep.isFor home) Deployment.homeAgent qs =
      Runs.answers RegRep.push (RegRep.isFor home) Deployment.homeAgent qs' := by
  intro home other q q' qs qs'
  exact (replies_independent_of_others Deployment.homeAgentPrivateAddress home qs qs'
    (by decide +kernel)).1

end MobileIP
