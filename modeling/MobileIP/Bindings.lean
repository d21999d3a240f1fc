import MobileIP.Messages
import MobileIP.Advertisement
import MobileIP.Library.Runs

/-! The bindings of the home agent over a whole sequence of requests, compared with
the map from a home address to the care-of address of its latest accepted request. -/
namespace MobileIP

open LittleEndian VectorSearch

namespace RegRep

/-- `RegRep::push` processes the request and updates the bindings by it. -/
def accepts (ha : HA) (q : Packet) : Prop :=
  (request q).type = 1 ∧ (checkAcceptable ha q = 0 ∨ checkAcceptable ha q = 1)

instance (ha : HA) (q : Packet) : Decidable (accepts ha q) := inferInstanceAs (Decidable (_ ∧ _))

def run (ha : HA) (qs : List Packet) : HA := Runs.final push ha qs

/-- The requests that were accepted, in order. -/
def accepted : HA → List Packet → List RegreqH
  | _, [] => []
  | ha, q :: qs =>
    if accepts ha q then request q :: accepted (push ha q).1 qs else accepted (push ha q).1 qs

theorem push_fst (ha : HA) (q : Packet) :
    (push ha q).1 = if accepts ha q then updateBindings ha (request q) else ha := by
  unfold push accepts
  by_cases ht : (request q).type = 1
  · by_cases hc : checkAcceptable ha q = 0 ∨ checkAcceptable ha q = 1
    · simp only [ht, hc, and_self, if_true]
      split_ifs <;> rfl
    · simp only [ht, hc, and_false, if_true, if_false]
      split_ifs <;> rfl
  · simp only [ht, false_and, if_false]

theorem run_eq_foldl (ha : HA) (qs : List Packet) :
    run ha qs = (accepted ha qs).foldl updateBindings ha := by
  -- a packet that is not accepted leaves the bindings as they are
  induction qs generalizing ha with
  | nil => rfl
  | cons q qs ih =>
    have hstep : run ha (q :: qs) = run (push ha q).1 qs := rfl
    rw [hstep, ih, accepted]
    by_cases h : accepts ha q
    · simp only [if_pos h, List.foldl_cons, push_fst]
    · simp only [if_neg h, push_fst]

end RegRep

/-- The care-of addresses that `home` has registered since it last deregistered. -/
def visit (home : IPAddress) (vs : List IPAddress) (r : RegreqH) : List IPAddress :=
  if r.homeAddress ≠ home then vs
  else if r.homeAddress = r.careOfAddress then []
  else vs ++ [r.careOfAddress]

def visits (home : IPAddress) (rs : List RegreqH) : List IPAddress := rs.foldl (visit home) []

theorem visits_eq_nil_iff (home : IPAddress) (rs : List RegreqH) :
    visits home rs = [] ↔
      ∀ r, (rs.filter (fun r => r.homeAddress == home)).getLast? = some r →
        r.homeAddress = r.careOfAddress := by
  -- the last request of the node decides, so the induction is on the end of the list
  induction rs using List.reverseRecOn with
  | nil => simp [visits]
  | append_singleton rs r ih =>
    have hstep : visits home (rs ++ [r]) = visit home (visits home rs) r := by
      simp [visits]
    rw [hstep, List.filter_append]
    unfold visit
    by_cases hh : r.homeAddress = home
    · rw [if_neg (not_not_intro hh)]
      by_cases hd : r.homeAddress = r.careOfAddress
      · rw [if_pos hd]
        simpa [hh] using hh.symm.trans hd
      · rw [if_neg hd]
        simpa [hh] using fun h => hd (hh.trans h)
    · rw [if_pos hh, ih]
      simp [hh]

/-- The care-of addresses bound to `home`, in list order. -/
def HA.careOf (ha : HA) (home : IPAddress) : List IPAddress :=
  (ha.mobilityBindings.filter (fun mi => mi.address == home)).map MobileInfo.careOfAddress

theorem HA.careOf_eq_nil_iff (ha : HA) (home : IPAddress) :
    ha.careOf home = [] ↔ ∀ mi ∈ ha.mobilityBindings, mi.address ≠ home := by
  simp [HA.careOf, List.filter_eq_nil_iff]

theorem HA.careOf_updateBindings (ha : HA) (r : RegreqH) (home : IPAddress) :
    (RegRep.updateBindings ha r).careOf home = visit home (ha.careOf home) r := by
  -- a deregistration filters the list again, a registration appends one entry; each is seen only by
  -- its own node
  unfold RegRep.updateBindings visit HA.careOf
  by_cases hd : r.homeAddress = r.careOfAddress
  · rw [if_pos hd]
    dsimp only
    rw [RegRep.eraseBindings_eq_filter, List.filter_filter]
    by_cases hh : r.homeAddress = home
    · have hnone : ∀ mi ∈ ha.mobilityBindings,
          ¬ (mi.address == home && decide (mi.address ≠ r.homeAddress)) = true := by
        intro mi _
        simp [hh]
      rw [List.filter_eq_nil_iff.mpr hnone, if_neg (not_not_intro hh), if_pos hd]
      rfl
    · have hsame : ∀ mi ∈ ha.mobilityBindings,
          (mi.address == home && decide (mi.address ≠ r.homeAddress)) = (mi.address == home) := by
        intro mi _
        by_cases hm : mi.address = home
        · simp [hm, Ne.symm hh]
        · simp [hm]
      rw [List.filter_congr hsame, if_pos hh]
  · rw [if_neg hd]
    dsimp only
    rw [List.filter_append, List.map_append]
    by_cases hh : r.homeAddress = home
    · rw [if_neg (not_not_intro hh), if_neg hd]
      simp [hh, RegRep.newBinding]
    · rw [if_pos hh]
      simp [hh, RegRep.newBinding]

theorem HA.careOf_foldl (ha : HA) (rs : List RegreqH) (home : IPAddress) :
    (rs.foldl RegRep.updateBindings ha).careOf home = rs.foldl (visit home) (ha.careOf home) := by
  induction rs generalizing ha with
  | nil => rfl
  | cons r rs ih => rw [List.foldl_cons, List.foldl_cons, ih, HA.careOf_updateBindings]

theorem HA.push_eq (ha : HA) (p : Packet) :
    HA.push ha p =
      [.forward (if ha.careOf (ClickIp.ofBytes p.data).ipDst = [] then 0 else 1) p] := by
  have hh := firstMatch_eq_head_filter (fun mi : MobileInfo =>
    mi.address == (ClickIp.ofBytes p.data).ipDst) ha.mobilityBindings
  unfold HA.push HA.careOf
  dsimp only
  cases hm : firstMatch (fun mi : MobileInfo => mi.address == (ClickIp.ofBytes p.data).ipDst)
      ha.mobilityBindings with
  | none =>
    rw [hm] at hh
    simp [List.head?_eq_none_iff.mp hh.symm]
  | some r =>
    rw [hm] at hh
    have hne : ha.mobilityBindings.filter
        (fun mi => mi.address == (ClickIp.ofBytes p.data).ipDst) ≠ [] := by
      intro hnil
      simp [hnil] at hh
    simp [hne]

theorem Encapsulator.getDestinationIp_eq (ha : HA) (home : IPAddress) :
    Encapsulator.getDestinationIp ha home = (ha.careOf home).headD home := by
  have hh := firstMatch_eq_head_filter (fun mi : MobileInfo => mi.address == home)
    ha.mobilityBindings
  unfold Encapsulator.getDestinationIp HA.careOf
  cases hm : firstMatch (fun mi : MobileInfo => mi.address == home) ha.mobilityBindings with
  | none =>
    rw [hm] at hh
    simp [List.head?_eq_none_iff.mp hh.symm]
  | some r =>
    rw [hm] at hh
    rw [List.headD_eq_head?_getD, List.head?_map, ← hh]
    rfl

def record (m : IPAddress → Option IPAddress) (r : RegreqH) : IPAddress → Option IPAddress :=
  Function.update m r.homeAddress
    (if r.homeAddress = r.careOfAddress then none else some r.careOfAddress)

/-- What the bindings are for: the map from a home address to the care-of address of
its latest accepted request, with no entry after a deregistration. -/
def latestCareOf (rs : List RegreqH) : IPAddress → Option IPAddress := rs.foldl record (fun _ => none)

/-- Both readers of the bindings act on packets for `home` as the map `m` says. -/
def HA.follows (ha : HA) (m : IPAddress → Option IPAddress) (home : IPAddress) : Prop :=
  match m home with
  | some c => (∀ p, (ClickIp.ofBytes p.data).ipDst = home → HA.push ha p = [.forward 1 p]) ∧
      Encapsulator.getDestinationIp ha home = c
  | none => ∀ p, (ClickIp.ofBytes p.data).ipDst = home → HA.push ha p = [.forward 0 p]

theorem record_eq_getLast_visit (r : RegreqH) (home : IPAddress) (m : IPAddress → Option IPAddress)
    (vs : List IPAddress) (h : m home = vs.getLast?) :
    record m r home = (visit home vs r).getLast? := by
  unfold record visit
  by_cases hh : r.homeAddress = home
  · rw [if_neg (not_not_intro hh), ← hh, Function.update_self]
    split_ifs <;> simp
  · rw [if_pos hh, Function.update_of_ne (Ne.symm hh), h]

theorem foldl_record_eq (rs : List RegreqH) (home : IPAddress) (m : IPAddress → Option IPAddress)
    (vs : List IPAddress) (h : m home = vs.getLast?) :
    rs.foldl record m home = (rs.foldl (visit home) vs).getLast? := by
  induction rs generalizing m vs with
  | nil => exact h
  | cons r rs ih =>
    rw [List.foldl_cons, List.foldl_cons]
    apply ih
    exact record_eq_getLast_visit r home m vs h

/-- The map is the last of the care-of addresses that the list holds. -/
theorem latestCareOf_eq (rs : List RegreqH) (home : IPAddress) :
    latestCareOf rs home = (visits home rs).getLast? := by
  apply foldl_record_eq
  rfl

/-- The home agent reads the first care-of address of a node. -/
theorem HA.follows_iff (ha : HA) (m : IPAddress → Option IPAddress) (home : IPAddress)
    (hm : m home = (ha.careOf home).getLast?) :
    ha.follows m home ↔ (ha.careOf home).head? = (ha.careOf home).getLast? := by
  unfold HA.follows
  rw [hm, Encapsulator.getDestinationIp_eq]
  rcases hl : ha.careOf home with - | ⟨c, vs⟩
  · simp only [List.getLast?_nil, List.head?_nil, iff_true]
    intro p hp
    rw [HA.push_eq, hp, hl, if_pos rfl]
  · have hlast := List.getLast?_eq_some_getLast (List.cons_ne_nil c vs)
    rw [hlast]
    simp only [List.headD_cons, List.head?_cons, Option.some.injEq, and_iff_right_iff_imp]
    intro _ p hp
    rw [HA.push_eq, hp, hl, if_neg (List.cons_ne_nil c vs)]

/-- After any packets, the home agent follows the latest accepted request of a node
exactly if the node's first registration since it last deregistered named the same
care-of address as its latest one. -/
theorem bindings_follow_latest_iff (a : IPAddress) (qs : List Packet) (home : IPAddress) :
    (RegRep.run ⟨a, []⟩ qs).follows (latestCareOf (RegRep.accepted ⟨a, []⟩ qs)) home ↔
      (visits home (RegRep.accepted ⟨a, []⟩ qs)).head? =
        (visits home (RegRep.accepted ⟨a, []⟩ qs)).getLast? := by
  have hc : (RegRep.run ⟨a, []⟩ qs).careOf home = visits home (RegRep.accepted ⟨a, []⟩ qs) := by
    rw [RegRep.run_eq_foldl, HA.careOf_foldl]
    rfl
  rw [← hc]
  apply HA.follows_iff
  rw [hc, latestCareOf_eq]

/-- A node that moves from one foreign agent to another without going home. -/
theorem bindings_keep_first_care_of :
    let moves := [(RegReq.makePacket Deployment.info ⟨1, 1⟩ Deployment.homeAgentPublicAddress 100
        Deployment.foreignAgentPublicAddress).2,
      (RegReq.makePacket Deployment.info ⟨2, 2⟩ Deployment.homeAgentPublicAddress 100
        (Deployment.ipv4 192 168 0 4)).2]
    ¬ (RegRep.run Deployment.homeAgent moves).follows
      (latestCareOf (RegRep.accepted Deployment.homeAgent moves)) Deployment.mobileNodeAddress := by
  intro moves h
  have hlatest : latestCareOf (RegRep.accepted Deployment.homeAgent moves)
      Deployment.mobileNodeAddress = some (Deployment.ipv4 192 168 0 4) := by decide
  have hfirst : Encapsulator.getDestinationIp (RegRep.run Deployment.homeAgent moves)
      Deployment.mobileNodeAddress = Deployment.foreignAgentPublicAddress := by decide
  unfold HA.follows at h
  rw [hlatest] at h
  have hne : ¬ Deployment.foreignAgentPublicAddress = Deployment.ipv4 192 168 0 4 := by decide
  exact hne (hfirst.symm.trans h.2)

end MobileIP
