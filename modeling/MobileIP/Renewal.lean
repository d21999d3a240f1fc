import MobileIP.Aging
import MobileIP.Advertising
import MobileIP.PendingRequests

/-! The end of a registration: `RegNode` counts its lifetime down, asks for a new one when it is
almost over, and disconnects the node when it is. -/
namespace MobileIP

open LittleEndian VectorSearch

namespace Advertisement

theorem ipSrc_of_headers (e : Advertisement) (dst : IPAddress) (x : Packet)
    (hx : RegReq.headers x = RegReq.headers (e.sendPacket dst).2) :
    (RegReq.aip x).ipSrc = e.srcIp := by
  have hip : RegReq.aip x = e.ip dst := (congrArg Prod.fst hx).trans (iph_sendPacket e dst)
  rw [hip]
  rfl

/-- What `RegReq` does with the advertisement of a foreign agent, however long it was stored. -/
theorem push_of_headers (e : Advertisement) (dst : IPAddress) (x : Packet)
    (hx : RegReq.headers x = RegReq.headers (e.sendPacket dst).2) (hfa : e.fa = true) (mn : MNInfo)
    (draw : Draw) (hgw : e.srcIp ≠ mn.gateway) :
    ∃ r, r.dest = e.srcIp ∧
      (RegReq.push mn draw x).1 = { mn with pending := mn.pending ++ [r] } := by
  have hsrc := ipSrc_of_headers e dst x hx
  have hext : RegReq.ahx x = RegReq.ahx (e.sendPacket dst).2 := congrArg Prod.snd hx
  have hforeign : RegReq.foreign x := by
    unfold RegReq.foreign
    rw [hext]
    exact (foreign_sendPacket e dst).mpr hfa
  have haway : (RegReq.aip x).ipSrc ≠ mn.gateway := by
    rw [hsrc]
    exact hgw
  refine ⟨RegReq.pendingRequest draw (RegReq.aip x).ipSrc (ntohs (RegReq.ahx x).lifetime)
    (RegReq.ahx x).address, hsrc, ?_⟩
  rw [RegReq.push_foreign mn draw x haway hforeign]
  rfl

end Advertisement

namespace Mobile

def Input.isTimer : Input → Bool
  | .packet _ _ _ => false
  | .advertise _ _ => false
  | .reply _ => false
  | .tickRequests => true
  | .tickNode _ => true
  | .tickAgent _ _ _ _ => true

/-- The call of `RegNode::run_timer` in a step, with the advertisements that it hands to
`RegReq`. -/
def calls (s : Mobile) : Input → List (List Packet)
  | .tickNode draw =>
    if s.node.timer then [outputs 0 (RegNode.runTimer s.node s.mn draw).2.2.1] else []
  | _ => []

def observed (s : Mobile) (i : Input) : Mobile × List (List Packet) := ((step s i).1, calls s i)

theorem final_observed (s : Mobile) (is : List Input) :
    Runs.final observed s is = Runs.final step s is := by
  induction is generalizing s with
  | nil => rfl
  | cons i is ih => exact ih (step s i).1

/-- The advertisement that a renewal would use. -/
def stored (s : Mobile) : Option Packet := s.mn.advertisements.lookup s.mn.foreignAgent

/-- A renewal would tell `RegReq` that the node is home. -/
def RenewsHome (s : Mobile) : Prop := ∃ q ∈ stored s, RegReq.returnsHome s.mn q

instance (s : Mobile) : Decidable (RenewsHome s) :=
  match h : stored s with
  | some q => decidable_of_iff (RegReq.returnsHome s.mn q) (by simp [RenewsHome, h])
  | none => isFalse (by simp [RenewsHome, h])

/-- The ticks that a registration lasts: its lifetime, or until a renewal that ends it. -/
def remaining (s : Mobile) : ℕ :=
  if s.node.registrationAlmostOver.toNat < s.mn.lifetime.toNat ∧ RenewsHome s then
    s.mn.lifetime.toNat-s.node.registrationAlmostOver.toNat
  else s.mn.lifetime.toNat

theorem remaining_cases (s : Mobile) :
    (s.node.registrationAlmostOver.toNat < s.mn.lifetime.toNat ∧ RenewsHome s ∧
      remaining s = s.mn.lifetime.toNat-s.node.registrationAlmostOver.toNat) ∨
    (¬ (s.node.registrationAlmostOver.toNat < s.mn.lifetime.toNat ∧ RenewsHome s) ∧
      remaining s = s.mn.lifetime.toNat) := by
  unfold remaining
  split_ifs with hends
  · exact Or.inl ⟨hends.1, hends.2, rfl⟩
  · exact Or.inr ⟨hends, rfl⟩

theorem remaining_bounds (s : Mobile) :
    s.mn.lifetime.toNat-s.node.registrationAlmostOver.toNat ≤ remaining s ∧
      remaining s ≤ s.mn.lifetime.toNat := by
  rcases remaining_cases s with ⟨-, -, hr⟩ | ⟨-, hr⟩
  · omega
  · omega

/-- How the node stands after some calls of `RegNode::run_timer`, when it stood at `s₀` before
them. -/
structure Counting (s₀ : Mobile) (calls : List (List Packet)) (s : Mobile) : Prop where
  almostOver : s.node.registrationAlmostOver = s₀.node.registrationAlmostOver
  gateway : s.mn.gateway = s₀.mn.gateway
  sized : ProcessAdvertisements.Sized s.mn
  stored : (s.mn.advertisements.lookup s₀.mn.foreignAgent).map RegReq.headers =
    (stored s₀).map RegReq.headers
  lifetime : s.mn.lifetime.toNat =
    if calls.length < remaining s₀ then s₀.mn.lifetime.toNat-calls.length else 0
  connected : s.mn.connected = true ↔ calls.length < remaining s₀
  foreignAgent : calls.length < remaining s₀ → s.mn.foreignAgent = s₀.mn.foreignAgent
  renewals : calls.flatten.length =
    if s₀.node.registrationAlmostOver.toNat < s₀.mn.lifetime.toNat ∧
      s₀.mn.lifetime.toNat-s₀.node.registrationAlmostOver.toNat ≤ calls.length ∧
      (Mobile.stored s₀).isSome then 1 else 0

section Counting

variable {s₀ s : Mobile} {cs : List (List Packet)} (h : Counting s₀ cs s)
include h

/-- The ticks of the other timers while the node is registered, or after. -/
theorem Counting.silent (pa : ProcessAdvertisements) (mn : MNInfo)
    (hgw : mn.gateway = s.mn.gateway) (hsized : ProcessAdvertisements.Sized mn)
    (hstored : (mn.advertisements.lookup s₀.mn.foreignAgent).map RegReq.headers =
      (s.mn.advertisements.lookup s₀.mn.foreignAgent).map RegReq.headers)
    (hcon : mn.connected = s.mn.connected) (hlt : mn.lifetime = s.mn.lifetime)
    (hfa : s.mn.connected = true → mn.foreignAgent = s.mn.foreignAgent) :
    Counting s₀ cs ⟨pa, s.node, mn⟩ := by
  refine ⟨h.almostOver, hgw.trans h.gateway, hsized, hstored.trans h.stored, ?_, ?_, ?_,
    h.renewals⟩
  · rw [← h.lifetime]
    exact congrArg UInt16.toNat hlt
  · rw [← h.connected]
    exact Bool.coe_iff_coe.mpr hcon
  · intro hk
    exact (hfa (h.connected.mpr hk)).trans (h.foreignAgent hk)

theorem Counting.lifetime_eq_zero (hc : s.mn.connected = false) : s.mn.lifetime = 0 := by
  have hk : ¬ cs.length < remaining s₀ := by
    rw [← h.connected, hc]
    exact Bool.false_ne_true
  have hlt := h.lifetime
  rw [if_neg hk] at hlt
  exact UInt16.toNat_inj.mp hlt

/-- After the end an advertisement can at most set the lifetime to zero once more. -/
theorem Counting.regReq_stopped (pa : ProcessAdvertisements) (draw : Draw) (adv : Packet)
    (hc : s.mn.connected = false) :
    Counting s₀ cs ⟨pa, s.node, (RegReq.push s.mn draw adv).1⟩ := by
  have hzero : s.mn.lifetime = 0 := h.lifetime_eq_zero hc
  have hadv := RegReq.advertisements_push s.mn draw adv
  have hgw := (RegReq.registration_push s.mn draw adv).1
  have hsame : (RegReq.push s.mn draw adv).1.connected = s.mn.connected ∧
      (RegReq.push s.mn draw adv).1.lifetime = s.mn.lifetime := by
    by_cases hret : RegReq.returnsHome s.mn adv
    · obtain ⟨hcon, -, hlt⟩ := RegReq.push_of_returnsHome s.mn draw adv hret
      exact ⟨hcon, hlt.trans hzero.symm⟩
    · obtain ⟨hcon, -, hlt⟩ := RegReq.push_of_not_returnsHome s.mn draw adv hret
      exact ⟨hcon, hlt⟩
  apply h.silent pa _ hgw (h.sized.congr hadv) _ hsame.1 hsame.2
  · intro hcon
    rw [hc] at hcon
    cases hcon
  · rw [hadv]

theorem Counting.tickAgent (now choice : ℕ) (draw : Draw) (i : ℕ) :
    Counting s₀ cs (step s (.tickAgent now choice draw i)).1 := by
  obtain ⟨⟨advertisements, hmn⟩, hsilent⟩ :=
    ProcessAdvertisements.runTimer_frame s.pa s.mn now choice i
  obtain ⟨hsized, hheads⟩ := ProcessAdvertisements.headers_runTimer s.pa s.mn now choice i h.sized
  unfold step
  dsimp only
  generalize ProcessAdvertisements.runTimer s.pa s.mn now choice i = r at hmn hsilent hsized hheads ⊢
  split_ifs
  · have hbetween : Counting s₀ cs ⟨r.pa, s.node, r.mn⟩ := by
      apply h.silent r.pa r.mn _ hsized (hheads _)
      · rw [hmn]
      · rw [hmn]
      · rw [hmn]
        exact fun _ => rfl
      · rw [hmn]
    unfold processed
    cases hout : (outputs 1 r.acts).head? with
    | none => exact hbetween
    | some adv =>
      -- only a node that is not connected tries again
      have hc : s.mn.connected = false := by
        by_contra hc
        rw [hsilent (Bool.not_eq_false _ ▸ hc)] at hout
        cases hout
      apply hbetween.regReq_stopped r.pa draw adv
      dsimp only
      rw [hmn]
      exact hc
  · exact h

theorem Counting.renewsHome_iff (hk : cs.length < remaining s₀) :
    (∃ q ∈ s.mn.advertisements.lookup s.mn.foreignAgent, RegReq.returnsHome s.mn q) ↔
      RenewsHome s₀ := by
  have hfa := h.foreignAgent hk
  have hstored := h.stored
  unfold RenewsHome
  rw [hfa]
  cases hnow : s.mn.advertisements.lookup s₀.mn.foreignAgent with
  | none =>
    rw [hnow, Option.map_none, eq_comm, Option.map_eq_none_iff] at hstored
    simp [hstored]
  | some q =>
    rw [hnow, Option.map_some, eq_comm, Option.map_eq_some_iff] at hstored
    obtain ⟨q₀, hq₀, hhead⟩ := hstored
    rw [hq₀]
    simp only [Option.mem_def, Option.some.injEq, exists_eq_left']
    exact RegReq.returnsHome_congr s₀.mn s.mn q₀ q h.gateway hfa hhead.symm

theorem Counting.isSome_lookup (hk : cs.length < remaining s₀) :
    (s.mn.advertisements.lookup s.mn.foreignAgent).isSome = (Mobile.stored s₀).isSome := by
  have hstored := congrArg Option.isSome h.stored
  rw [Option.isSome_map, Option.isSome_map] at hstored
  rw [h.foreignAgent hk]
  exact hstored

/-- A tick after the end does nothing. -/
theorem Counting.tick_stopped (draw : Draw) (hk : ¬ cs.length < remaining s₀) :
    let r := RegNode.runTimer s.node s.mn draw
    Counting s₀ (cs ++ [outputs 0 r.2.2.1]) ⟨s.pa, r.1, r.2.1⟩ := by
  have hc : s.mn.connected = false := by
    rw [← Bool.not_eq_true, h.connected]
    exact hk
  rw [RegNode.runTimer_stopped s.node s.mn draw (h.lifetime_eq_zero hc)]
  have hlen : (cs ++ [outputs 0 []]).length = cs.length+1 := by simp
  have hk' : ¬ cs.length+1 < remaining s₀ := by omega
  have hlt := h.lifetime
  have hren := h.renewals
  refine ⟨h.almostOver, h.gateway, h.sized, h.stored, ?_, ?_, ?_, ?_⟩
  · rw [hlen, if_neg hk']
    rw [if_neg hk] at hlt
    exact hlt
  · rw [hlen]
    dsimp only
    rw [hc]
    simp [hk']
  · rw [hlen]
    exact fun hcon => absurd hcon hk'
  · -- a renewal that was to come has come
    have hflat : (cs ++ [outputs 0 []]).flatten.length = cs.flatten.length := by simp
    have hdue : s₀.mn.lifetime.toNat-s₀.node.registrationAlmostOver.toNat ≤ cs.length :=
      (remaining_bounds s₀).1.trans (Nat.le_of_not_lt hk)
    have hdue' := Nat.le_succ_of_le hdue
    rw [hlen, hflat, hren]
    simp only [hdue, hdue', true_and]

theorem Counting.lifetime_next (hk : cs.length < remaining s₀) :
    0 < s.mn.lifetime ∧ (s.mn.lifetime-1).toNat = s₀.mn.lifetime.toNat-(cs.length+1) := by
  have hle := (remaining_bounds s₀).2
  have hlt := h.lifetime
  rw [if_pos hk] at hlt
  have hone : 1 ≤ s.mn.lifetime := by
    rw [UInt16.le_iff_toNat_le, UInt16.toNat_one]
    omega
  constructor
  · rw [UInt16.lt_iff_toNat_lt, UInt16.toNat_zero]
    omega
  · rw [UInt16.toNat_sub_of_le _ _ hone, UInt16.toNat_one]
    omega

/-- The tick that renews is the one that leaves what `REGISTRATIONALMOSTOVER` says. -/
theorem Counting.renewal_eq (hk : cs.length < remaining s₀) :
    RegNode.renewal s.node s.mn =
      if s₀.mn.lifetime.toNat-(cs.length+1) = s₀.node.registrationAlmostOver.toNat then
        s.mn.advertisements.lookup s.mn.foreignAgent
      else none := by
  apply if_congr _ rfl rfl
  rw [h.almostOver, ← UInt32.toNat_inj, UInt16.toNat_toUInt32, (h.lifetime_next hk).2]

theorem Counting.ends_iff (hk : cs.length < remaining s₀) :
    (∃ q ∈ RegNode.renewal s.node s.mn, RegReq.returnsHome s.mn q) ↔
      s₀.mn.lifetime.toNat-(cs.length+1) = s₀.node.registrationAlmostOver.toNat ∧
        RenewsHome s₀ := by
  rw [h.renewal_eq hk]
  split_ifs with hf
  · rw [h.renewsHome_iff hk]
    simp only [hf, true_and]
  · simp only [hf, false_and, Option.not_mem_none, exists_false]

theorem Counting.length_renewal (hk : cs.length < remaining s₀) :
    (RegNode.renewal s.node s.mn).toList.length =
      if s₀.mn.lifetime.toNat-(cs.length+1) = s₀.node.registrationAlmostOver.toNat ∧
        (Mobile.stored s₀).isSome then 1 else 0 := by
  rw [h.renewal_eq hk, ← h.isSome_lookup hk]
  by_cases hf : s₀.mn.lifetime.toNat-(cs.length+1) = s₀.node.registrationAlmostOver.toNat
  · rw [if_pos hf]
    cases s.mn.advertisements.lookup s.mn.foreignAgent with
    | none => simp
    | some q => simp [hf]
  · rw [if_neg hf]
    simp [hf]

/-- The registration after one more tick: it has ended early, has come to its end, or runs on. -/
theorem Counting.registration_next (draw : Draw) (hk : cs.length < remaining s₀) :
    let mn := (RegNode.runTimer s.node s.mn draw).2.1
    mn.lifetime.toNat =
        (if cs.length+1 < remaining s₀ then s₀.mn.lifetime.toNat-(cs.length+1) else 0) ∧
      (mn.connected = true ↔ cs.length+1 < remaining s₀) ∧
      (cs.length+1 < remaining s₀ → mn.foreignAgent = s₀.mn.foreignAgent) := by
  intro mn
  obtain ⟨hpos, hnext⟩ := h.lifetime_next hk
  obtain ⟨-, -, hreg⟩ := RegNode.registration_running s.node s.mn draw hpos
  have hends := h.ends_iff hk
  by_cases he : s₀.mn.lifetime.toNat-(cs.length+1) = s₀.node.registrationAlmostOver.toNat ∧
      RenewsHome s₀
  · rw [if_pos (hends.mpr he)] at hreg
    simp only [MNInfo.registration, Prod.mk.injEq] at hreg
    have hlast : ¬ cs.length+1 < remaining s₀ := by
      rcases remaining_cases s₀ with ⟨ha, -, hr⟩ | ⟨hno, hr⟩
      · omega
      · have ha : ¬ s₀.node.registrationAlmostOver.toNat < s₀.mn.lifetime.toNat :=
          fun ha => hno ⟨ha, he.2⟩
        omega
    rw [if_neg hlast]
    refine ⟨?_, ?_, fun hcon => absurd hcon hlast⟩
    · rw [hreg.2.2]
      rfl
    · rw [hreg.1]
      exact iff_of_false Bool.false_ne_true hlast
  · rw [if_neg (fun hc => he (hends.mp hc))] at hreg
    simp only [MNInfo.registration, Prod.mk.injEq] at hreg
    -- without an early end the last tick is the one that leaves nothing
    have hzero : s.mn.lifetime-1 = 0 ↔ ¬ cs.length+1 < remaining s₀ := by
      rw [← UInt16.toNat_inj, hnext, UInt16.toNat_zero]
      rcases remaining_cases s₀ with ⟨ha, hhome, hr⟩ | ⟨-, hr⟩
      · have hne : s₀.mn.lifetime.toNat-(cs.length+1) ≠
            s₀.node.registrationAlmostOver.toNat := fun hf => he ⟨hf, hhome⟩
        omega
      · omega
    rw [hreg.1, hreg.2.1, hreg.2.2, hnext]
    by_cases hlast : cs.length+1 < remaining s₀
    · rw [if_pos hlast, if_neg (fun hz => hzero.mp hz hlast)]
      exact ⟨rfl, iff_of_true (h.connected.mpr hk) hlast, fun _ => h.foreignAgent hk⟩
    · rw [if_neg hlast, if_pos (hzero.mpr hlast), ← hnext, hzero.mpr hlast]
      exact ⟨rfl, iff_of_false Bool.false_ne_true hlast, fun hcon => absurd hcon hlast⟩

/-- The renewals after one more tick. -/
theorem Counting.renewals_next (hk : cs.length < remaining s₀) :
    cs.flatten.length+(RegNode.renewal s.node s.mn).toList.length =
      if s₀.node.registrationAlmostOver.toNat < s₀.mn.lifetime.toNat ∧
        s₀.mn.lifetime.toNat-s₀.node.registrationAlmostOver.toNat ≤ cs.length+1 ∧
        (Mobile.stored s₀).isSome then 1 else 0 := by
  have hle := (remaining_bounds s₀).2
  rw [h.renewals, h.length_renewal hk]
  cases (Mobile.stored s₀).isSome with
  | false => simp
  | true =>
    simp only [and_true]
    -- it was due before, is due at this tick, or is still to come
    split_ifs
    all_goals omega

theorem Counting.tick_running (draw : Draw) (hk : cs.length < remaining s₀) :
    let r := RegNode.runTimer s.node s.mn draw
    Counting s₀ (cs ++ [outputs 0 r.2.2.1]) ⟨s.pa, r.1, r.2.1⟩ := by
  intro r
  obtain ⟨hpos, -⟩ := h.lifetime_next hk
  obtain ⟨hnode, hout, -⟩ := RegNode.runTimer_running s.node s.mn draw hpos
  obtain ⟨hgw, hadv, -⟩ := RegNode.registration_running s.node s.mn draw hpos
  have hregistration := h.registration_next draw hk
  have hrenewals := h.renewals_next hk
  have hlen : (cs ++ [outputs 0 r.2.2.1]).length = cs.length+1 := by simp
  have hflat : (cs ++ [outputs 0 r.2.2.1]).flatten.length =
      cs.flatten.length+(RegNode.renewal s.node s.mn).toList.length := by
    rw [← hout]
    simp [r]
  rw [← hlen] at hregistration hrenewals
  rw [← hflat] at hrenewals
  obtain ⟨hlt, hcon, hfa⟩ := hregistration
  refine ⟨?_, hgw.trans h.gateway, h.sized.congr hadv, ?_, hlt, hcon, hfa, hrenewals⟩
  · dsimp only
    rw [hnode]
    exact h.almostOver
  · dsimp only
    rw [hadv]
    exact h.stored

theorem Counting.tickNode (draw : Draw) :
    Counting s₀ (cs ++ calls s (.tickNode draw)) (step s (.tickNode draw)).1 := by
  unfold calls step
  dsimp only
  by_cases ht : s.node.timer = true
  · rw [if_pos ht, if_pos ht]
    by_cases hk : cs.length < remaining s₀
    · exact h.tick_running draw hk
    · exact h.tick_stopped draw hk
  · rw [if_neg ht, if_neg ht, List.append_nil]
    exact h

theorem Counting.step (i : Input) (hi : i.isTimer = true) :
    Counting s₀ (cs ++ calls s i) (step s i).1 := by
  cases i with
  | packet now draw p => cases hi
  | advertise draw adv => cases hi
  | reply p => cases hi
  | tickRequests =>
    have hnone : cs ++ calls s .tickRequests = cs := List.append_nil cs
    rw [hnone]
    exact h.silent s.pa _ rfl h.sized rfl rfl rfl (fun _ => rfl)
  | tickNode draw => exact h.tickNode draw
  | tickAgent now choice draw i =>
    have hnone : cs ++ calls s (.tickAgent now choice draw i) = cs := List.append_nil cs
    rw [hnone]
    exact h.tickAgent now choice draw i

/-- Only a call during the registration hands something on, which is then what is stored for
the foreign agent. -/
theorem Counting.lookup_of_renewed (draw : Draw) (x : Packet)
    (hx : x ∈ outputs 0 (RegNode.runTimer s.node s.mn draw).2.2.1) :
    0 < s.mn.lifetime ∧ RegNode.renewal s.node s.mn = some x ∧
      s.mn.advertisements.lookup s₀.mn.foreignAgent = some x := by
  have hk : cs.length < remaining s₀ := by
    by_contra hk
    have hc : s.mn.connected = false := by
      rw [← Bool.not_eq_true, h.connected]
      exact hk
    rw [RegNode.runTimer_stopped s.node s.mn draw (h.lifetime_eq_zero hc)] at hx
    cases hx
  obtain ⟨hpos, -⟩ := h.lifetime_next hk
  obtain ⟨-, hout, -⟩ := RegNode.runTimer_running s.node s.mn draw hpos
  rw [hout, Option.mem_toList] at hx
  refine ⟨hpos, hx, ?_⟩
  rw [h.renewal_eq hk, h.foreignAgent hk] at hx
  split_ifs at hx
  exact hx

/-- The renewal with an advertisement that the foreign agent sent is one more request to it. -/
theorem Counting.renews (haway : s₀.mn.foreignAgent ≠ s₀.mn.gateway) (e : Advertisement)
    (dst : IPAddress) (hfa : e.fa = true) (hsrc : e.srcIp = s₀.mn.foreignAgent)
    (hsent : (Mobile.stored s₀).map RegReq.headers = some (RegReq.headers (e.sendPacket dst).2))
    (draw : Draw) (x : Packet) (hx : x ∈ (calls s (.tickNode draw)).flatten) :
    let counted := { s.mn with lifetime := s.mn.lifetime-1 }
    ∃ r, r.dest = s₀.mn.foreignAgent ∧
      (RegReq.push counted draw x).1 = { counted with pending := counted.pending ++ [r] } ∧
      (Mobile.step s (.tickNode draw)).1.mn = RegNode.expire (RegReq.push counted draw x).1 := by
  intro counted
  unfold calls at hx
  unfold Mobile.step
  dsimp only at hx ⊢
  have ht : s.node.timer = true := by
    by_contra ht
    rw [if_neg ht] at hx
    cases hx
  rw [if_pos ht, List.flatten_singleton] at hx
  rw [if_pos ht]
  obtain ⟨hpos, hrenewal, hlookup⟩ := h.lookup_of_renewed draw x hx
  obtain ⟨-, -, hmn⟩ := RegNode.runTimer_running s.node s.mn draw hpos
  rw [hrenewal, Option.elim_some] at hmn
  have hhead : RegReq.headers x = RegReq.headers (e.sendPacket dst).2 := by
    have hstored := h.stored
    rw [hlookup, hsent, Option.map_some] at hstored
    exact Option.some.inj hstored
  have hgw : e.srcIp ≠ counted.gateway := by
    change _ ≠ s.mn.gateway
    rw [hsrc, h.gateway]
    exact haway
  obtain ⟨r, hdest, hpush⟩ := e.push_of_headers dst x hhead hfa counted draw hgw
  exact ⟨r, hdest.trans hsrc, hpush, hmn⟩

end Counting

theorem counting_final (s₀ : Mobile) (hsized : ProcessAdvertisements.Sized s₀.mn)
    (hc : s₀.mn.connected = true) (hl : 0 < s₀.mn.lifetime) (is : List Input)
    (htimers : ∀ i ∈ is, i.isTimer = true) :
    Counting s₀ (Runs.trace observed s₀ is) (Runs.final step s₀ is) := by
  induction is using List.reverseRecOn with
  | nil =>
    have hl' : 0 < s₀.mn.lifetime.toNat := UInt16.lt_iff_toNat_lt.mp hl
    have hrem : 0 < remaining s₀ := by
      rcases remaining_cases s₀ with ⟨ha, -, hr⟩ | ⟨-, hr⟩
      · omega
      · omega
    refine ⟨rfl, rfl, hsized, rfl, (if_pos hrem).symm, iff_of_true hc hrem, fun _ => rfl, ?_⟩
    -- nothing is due before the first tick
    rw [if_neg]
    · rfl
    · rintro ⟨ha, hdue, -⟩
      change _ ≤ 0 at hdue
      omega
  | append_singleton is i ih =>
    have hcount := ih (fun j hj => htimers j (by simp [hj]))
    rw [Runs.trace_concat, Runs.final_concat, final_observed]
    exact hcount.step i (htimers i (by simp))

end Mobile

/-- Wherever a run has left the node connected with a lifetime, as an accepted registration
does, the calls of `RegNode::run_timer` count it down second by second until it is over, with one
renewal on the way if there is time for one and an advertisement to renew with. Only a renewal
that tells of home ends the registration early; with an advertisement that the foreign agent
itself sent, it is one more request to that agent. -/
theorem registration_counts_down (homeAgent homeAddress gateway : IPAddress) (lifetime : UInt16)
    (registrationAlmostOver : UInt32) (before after : List Mobile.Input) :
    let s := Runs.final Mobile.step (Mobile.configure
      (MNInfo.configure homeAgent homeAddress gateway lifetime) registrationAlmostOver) before
    let t := Runs.final Mobile.step s after
    let calls := Runs.trace Mobile.observed s after
    let L := s.mn.lifetime.toNat
    let a := registrationAlmostOver.toNat
    s.mn.connected = true → 0 < L → (∀ i ∈ after, i.isTimer = true) →
      let last := if a < L ∧ Mobile.RenewsHome s then L-a else L
      t.mn.lifetime.toNat = (if calls.length < last then L-calls.length else 0) ∧
      (t.mn.connected = true ↔ calls.length < last) ∧
      calls.flatten.length =
        (if a < L ∧ L-a ≤ calls.length ∧ (Mobile.stored s).isSome then 1 else 0) ∧
      ∀ (e : Advertisement) (dst : IPAddress) (q : Packet), e.fa = true →
        e.srcIp = s.mn.foreignAgent → Mobile.stored s = some q →
        ProcessAdvertisements.Aged (e.sendPacket dst).2 q →
        last = L ∧
          ∀ is draw js, after = is ++ .tickNode draw :: js →
            let u := Runs.final Mobile.step s is
            let counted := { u.mn with lifetime := u.mn.lifetime-1 }
            ∀ x ∈ (Mobile.calls u (.tickNode draw)).flatten, ∃ r,
              r.dest = s.mn.foreignAgent ∧
              (RegReq.push counted draw x).1 = { counted with pending := counted.pending ++ [r] } ∧
              (Mobile.step u (.tickNode draw)).1.mn =
                RegNode.expire (RegReq.push counted draw x).1 := by
  intro s t calls L a hc hl htimers last
  have hs : Mobile.Sound registrationAlmostOver s :=
    Mobile.sound_final homeAgent homeAddress gateway lifetime registrationAlmostOver before
  have hl' : 0 < s.mn.lifetime := UInt16.lt_iff_toNat_lt.mpr hl
  have hlast : Mobile.remaining s = last := by
    unfold Mobile.remaining
    rw [hs.almostOver]
  have hcount : Mobile.Counting s calls t :=
    Mobile.counting_final s hs.sized hc hl' after htimers
  have hlifetime := hcount.lifetime
  have hconnected := hcount.connected
  have hrenewals := hcount.renewals
  rw [hlast] at hlifetime hconnected
  rw [hs.almostOver] at hrenewals
  refine ⟨hlifetime, hconnected, hrenewals, ?_⟩
  intro e dst q hfa hsrc hstored haged
  have haway : s.mn.foreignAgent ≠ s.mn.gateway := hs.away hc hl'
  have hlen : 28 ≤ (e.sendPacket dst).2.data.length :=
    ProcessAdvertisements.length_of_advertises _ (Advertisement.advertises_sendPacket e dst)
  have hhead : RegReq.headers q = RegReq.headers (e.sendPacket dst).2 := haged.headers hlen
  have hsent : (Mobile.stored s).map RegReq.headers =
      some (RegReq.headers (e.sendPacket dst).2) := by
    rw [hstored, Option.map_some, hhead]
  refine ⟨?_, ?_⟩
  · -- the agent is not the gateway, so its advertisement does not tell of home
    apply if_neg
    rintro ⟨-, q', hq', hgw, -⟩
    rw [hstored] at hq'
    rw [← Option.some.inj hq', e.ipSrc_of_headers dst q hhead] at hgw
    exact haway (hsrc.symm.trans hgw)
  · intro is draw js hsplit u counted x hx
    have hbefore : ∀ i ∈ is, i.isTimer = true := by
      intro i hi
      apply htimers
      rw [hsplit]
      simp [hi]
    have hu := Mobile.counting_final s hs.sized hc hl' is hbefore
    exact hu.renews haway e dst hfa hsrc hsent draw x hx

namespace Deployment

/-- A node that renews its registration two seconds after it got it. -/
def renewing : Mobile := Runs.final Mobile.step (Mobile.configure info 98) registers

def tick : Mobile.Input := .tickNode ⟨4712, 2⟩

/-- An advertisement of the home agent's network that names the foreign agent. -/
def misplacedAdvertisement : Packet :=
  let e := { foreignAdvertiser with ha := true, fa := false }
  ⟨(homeAdvertiser.ip 0xffffffff).toBytes ++ (e.icmp.toBytes ++ e.extension.toBytes), 0xffffffff⟩

end Deployment

theorem registration_counts_down_deployed :
    let s := Deployment.renewing
    let u := (Mobile.step s Deployment.tick).1
    let t := (Mobile.step u Deployment.tick).1
    let counted := { u.mn with lifetime := u.mn.lifetime-1 }
    (s.mn.connected = true ∧ s.mn.lifetime = 100) ∧
      t.mn.lifetime.toNat = 98 ∧ t.mn.connected = true ∧
      (Runs.trace Mobile.observed s [Deployment.tick, Deployment.tick]).flatten.length = 1 ∧
      Deployment.foreignAdvertisement ∈ (Mobile.calls u Deployment.tick).flatten ∧
      ∃ r, r.dest = Deployment.foreignAgentPrivateAddress ∧
        (RegReq.push counted ⟨4712, 2⟩ Deployment.foreignAdvertisement).1 =
          { counted with pending := counted.pending ++ [r] } := by
  intro s u t counted
  let after := [Deployment.tick, Deployment.tick]
  have hc : s.mn.connected = true := by decide +kernel
  have hl : s.mn.lifetime = 100 := by decide +kernel
  have hfa : s.mn.foreignAgent = Deployment.foreignAgentPrivateAddress := by decide +kernel
  have hhome : ¬ Mobile.RenewsHome s := by decide +kernel
  have hstored : Mobile.stored s = some Deployment.foreignAdvertisement := by decide +kernel
  have hcalls : (Runs.trace Mobile.observed s after).length = 2 := by decide +kernel
  have hx : Deployment.foreignAdvertisement ∈ (Mobile.calls u Deployment.tick).flatten := by
    decide +kernel
  have hpos : 0 < s.mn.lifetime.toNat := by
    rw [hl]
    decide
  have htimers : ∀ i ∈ after, i.isTimer = true := by simp [after, Deployment.tick, Mobile.Input.isTimer]
  obtain ⟨hlifetime, hconnected, hrenewals, hown⟩ := registration_counts_down
    Deployment.homeAgentPublicAddress Deployment.mobileNodeAddress
    Deployment.homeAgentPrivateAddress 0 98 Deployment.registers after hc hpos htimers
  have hs : Runs.final Mobile.step (Mobile.configure (MNInfo.configure
      Deployment.homeAgentPublicAddress Deployment.mobileNodeAddress
      Deployment.homeAgentPrivateAddress 0) 98) Deployment.registers = s := rfl
  have ht : Runs.final Mobile.step s after = t := rfl
  have hlast : ¬ ((98 : UInt32).toNat < s.mn.lifetime.toNat ∧ Mobile.RenewsHome s) :=
    fun h => hhome h.2
  simp only [hs] at hlifetime hconnected hrenewals hown
  rw [if_neg hlast, hcalls, hl, ht] at hlifetime hconnected
  rw [hcalls, hl, hstored] at hrenewals
  obtain ⟨-, hrequest⟩ := hown Deployment.foreignAdvertiser 0xffffffff
    Deployment.foreignAdvertisement rfl hfa.symm hstored (Or.inl rfl)
  obtain ⟨r, hdest, hpush, -⟩ := hrequest [Deployment.tick] ⟨4712, 2⟩ [] rfl
    Deployment.foreignAdvertisement hx
  refine ⟨⟨hc, hl⟩, ?_, hconnected.mpr (by decide), ?_, hx, r, hdest.trans hfa, hpush⟩
  · exact hlifetime.trans (by decide)
  · exact hrenewals.trans (by decide)

/-- The stored advertisement of the foreign agent is from the gateway and tells of home: the
renewal takes all of the lifetime at the first tick. -/
theorem registration_cut_short :
    let s := Runs.final Mobile.step (Mobile.configure Deployment.info 99)
      [.packet 0 ⟨4711, 1⟩ Deployment.foreignAdvertisement,
        .packet 1 ⟨4712, 2⟩ Deployment.misplacedAdvertisement,
        .reply (Deployment.acceptance ⟨4711, 1⟩)]
    let t := (Mobile.step s (.tickNode ⟨4713, 3⟩)).1
    s.mn.registration = (true, Deployment.foreignAgentPrivateAddress, 100) ∧
      (Runs.trace Mobile.observed s [.tickNode ⟨4713, 3⟩]).length = 1 ∧
      ¬ (t.mn.lifetime.toNat = s.mn.lifetime.toNat-1 ∧
        (t.mn.connected = true ↔ 1 < s.mn.lifetime.toNat)) ∧
      t.mn.registration = (false, Deployment.info.gateway, 0) := by
  decide +kernel

end MobileIP
