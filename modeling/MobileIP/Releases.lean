import MobileIP.Dispatch
import MobileIP.Discovery
import MobileIP.Library.Custody

/-! What becomes of the packets that an element is given. `Relay` has to kill its packet or hand
it on; `ProcessAdvertisements` keeps some of them, and has to release those in the end. -/
namespace MobileIP

open LittleEndian VectorSearch

/-- The action is the end of the packet that the handler was given. -/
def Action.disposes : Action → Bool
  | .emit _ _ => false
  | .forward _ _ => true
  | .kill => true

/-- The handler kills its packet or hands it on, exactly once, and does nothing after that. -/
def DisposesOnce (acts : List Action) : Prop :=
  acts.countP Action.disposes = 1 ∧ acts.getLast?.any Action.disposes = true

instance (acts : List Action) : Decidable (DisposesOnce acts) :=
  inferInstanceAs (Decidable (_ ∧ _))

namespace Relay

theorem disposesOnce_relayReq (relay : Relay) (fa : FA) (rand : ℕ) (p : Packet) :
    DisposesOnce (relayReq relay fa rand p).2 := by
  unfold relayReq
  split_ifs
  · exact ⟨rfl, rfl⟩
  · split
    · exact ⟨rfl, rfl⟩
    · exact ⟨rfl, rfl⟩

theorem disposesOnce_relayRep (relay : Relay) (fa : FA) (p : Packet) :
    DisposesOnce (relayRep relay fa p).2 := by
  unfold relayRep
  split_ifs
  · exact ⟨rfl, rfl⟩
  · split
    · exact ⟨rfl, rfl⟩
    · exact ⟨rfl, rfl⟩

/-- The ICMP branch makes packets of its own, and forgets the one that it was given. -/
theorem countP_pushIcmp (fa : FA) (p : Packet) : (pushIcmp fa p).2.countP Action.disposes = 0 := by
  rw [List.countP_eq_zero]
  intro act hact
  unfold pushIcmp at hact
  split_ifs at hact
  · obtain ⟨e, -, rfl⟩ := List.mem_map.mp hact
    exact Bool.false_ne_true
  · cases hact

end Relay

/-- `Relay::push` disposes of its packet exactly if it is not an ICMP packet and has the size of a
registration request or reply. -/
theorem relay_disposes_once_iff (relay : Relay) (fa : FA) (rand : ℕ) (p : Packet) :
    DisposesOnce (Relay.push relay fa rand p).2 ↔ Relay.callsRelayReq p ∨ Relay.callsRelayRep p := by
  by_cases hreq : Relay.callsRelayReq p
  · rw [Relay.push_of_callsRelayReq relay fa rand p hreq]
    exact iff_of_true (Relay.disposesOnce_relayReq relay fa rand p) (Or.inl hreq)
  · by_cases hrep : Relay.callsRelayRep p
    · rw [Relay.push_of_callsRelayRep relay fa rand p hrep]
      exact iff_of_true (Relay.disposesOnce_relayRep relay fa p) (Or.inr hrep)
    · -- the paths that are left end without a disposal
      have hnone : (Relay.push relay fa rand p).2.countP Action.disposes = 0 := by
        by_cases hip : (Relay.ip p).ipP = 1
        · unfold Relay.push
          rw [if_pos hip]
          exact Relay.countP_pushIcmp fa p
        · rw [Relay.push_of_other_size relay fa rand p hip hreq hrep]
          rfl
      apply iff_of_false
      · intro h
        rw [DisposesOnce, hnone] at h
        cases h.1
      · rintro (h | h)
        · exact hreq h
        · exact hrep h

namespace Deployment

/-- The header of a packet from the mobile node to the foreign agent that is no registration
message. -/
def strayIp (protocol : UInt8) (length : UInt16) : ClickIp :=
  ClickIp.withSum
    { RegReq.requestIp info foreignAgentPrivateAddress with
      ipP := protocol
      ipLen := htons length
      ipSum := 0 }

def echoRequest : Packet where
  data := (default : Ether).bytes ++ ((strayIp 1 28).toBytes ++ [8, 0, 0xf7, 0xff, 0, 0, 0, 0])
  dstIpAnno := foreignAgentPrivateAddress

/-- A UDP message of one byte. -/
def shortMessage : Packet where
  data := (default : Ether).bytes ++
    udpData (strayIp 17 29) ⟨htons 4711, htons 434, htons 9, 0⟩ [0]
  dstIpAnno := foreignAgentPrivateAddress

end Deployment

/-- An echo request and a UDP message of one byte are neither killed nor handed on. -/
theorem relay_leaks :
    let push := fun p => (Relay.push Deployment.relay Deployment.foreignAgent 7 p).2
    push Deployment.echoRequest = [] ∧ push Deployment.shortMessage = [] ∧
      ¬ DisposesOnce (push Deployment.echoRequest) ∧ ¬ DisposesOnce (push Deployment.shortMessage) := by
  decide +kernel

namespace Discovery

open ProcessAdvertisements

/-- The agent that an input advertises. -/
def advertiser : Input → Option IPAddress
  | .push _ packet => if advertises packet then some (ah packet).address else none
  | .fire _ _ _ => none
  | .other _ => none

/-- The input is the advertisement of an agent that is busy. -/
def Withdraws : Input → Prop
  | .push _ packet => advertises packet ∧ busy packet
  | .fire _ _ _ => False
  | .other _ => False

theorem withdraws_concat (is : List Input) (i : Input) (hi : ¬ Withdraws i) :
    (∀ j ∈ is ++ [i], ¬ Withdraws j) ↔ ∀ j ∈ is, ¬ Withdraws j := by
  rw [List.forall_mem_append, List.forall_mem_singleton]
  exact and_iff_left hi

theorem keys_fire (s : Discovery) (h : WellFormed s) (now choice i : ℕ) :
    keys (step s (.fire now choice i)).1.mn = keys s.mn := by
  rcases fire_split s now choice i with hsame | ⟨pre, t, post, hl, rfl, ht⟩
  · rw [hsame]
  · exact (fire_cases s h now choice pre post t hl ht).1

/-- While no agent is busy, the agents that are known are those that have advertised. -/
theorem mem_keys_final (mn : MNInfo) (h : mn.advertisements = []) (is : List Input)
    (hbusy : ∀ i ∈ is, ¬ Withdraws i) (a : IPAddress) :
    a ∈ keys (Runs.final step (configure mn) is).mn ↔ a ∈ is.filterMap advertiser := by
  induction is using List.reverseRecOn with
  | nil =>
    rw [Runs.final, configure, keys, h]
    exact Iff.rfl
  | append_singleton is i ih =>
    have hbefore := ih (fun j hj => hbusy j (List.mem_append_left _ hj))
    have hi : ¬ Withdraws i := hbusy i (by simp)
    have hwf := wellFormed_final mn h is
    rw [Runs.final_concat, List.filterMap_append, List.mem_append, ← hbefore]
    cases i with
    | push now packet =>
      by_cases hadv : advertises packet
      · have hidle : ¬ busy packet := fun hb => hi ⟨hadv, hb⟩
        rw [mem_keys_push _ hwf now packet hadv]
        by_cases ha : a = (ah packet).address
        · simp [ha, advertiser, hadv, hidle]
        · simp [ha, advertiser, hadv]
      · rw [push_other _ now packet hadv]
        simp [advertiser, hadv]
    | fire now choice i =>
      rw [keys_fire _ hwf now choice i]
      simp [advertiser]
    | other mn' =>
      rw [show keys (step (Runs.final step (configure mn) is) (.other mn')).1.mn =
        keys (Runs.final step (configure mn) is).mn from rfl]
      simp [advertiser]

end Discovery

/-- A reference to a packet: the one that the `n`-th call of `push` was given, or the clone that
this call made. -/
inductive Ref where
  | packet (n : ℕ)
  | clone (n : ℕ)
  deriving DecidableEq, Repr

def Ref.call : Ref → ℕ
  | .packet n => n
  | .clone n => n

/-- The kills of the destructor of `ProcessAdvertisements`. Its outer loop runs once for every
stored advertisement, and its inner loop kills them all. -/
def destroyed {α : Type} (advertisements : List (IPAddress × α)) : List α :=
  (List.replicate advertisements.length (advertisements.map Prod.snd)).flatten

/-- The mobile node's advertisements together with the references that stand for them. -/
structure Ledger where
  discovery : Discovery
  -- how often `push` was called
  calls : ℕ
  -- the reference that is stored for each agent
  stored : List (IPAddress × Ref)
  -- all references that `push` was given or that it stored
  held : List Ref
  deriving DecidableEq, Repr

namespace Ledger

open ProcessAdvertisements

def configure (mn : MNInfo) : Ledger where
  discovery := Discovery.configure mn
  calls := 0
  stored := []
  held := []

/-- Every call of `push` brings a new reference. -/
def receive (l : Ledger) (now : ℕ) (packet : Packet) : Ledger where
  discovery := (Discovery.step l.discovery (.push now packet)).1
  calls := l.calls+1
  stored := l.stored
  held := l.held ++ [.packet l.calls]

/-- The references of the other agents. -/
def others (l : Ledger) (packet : Packet) : List (IPAddress × Ref) :=
  l.stored.filter (fun x => x.1 ≠ (ah packet).address)

/-- The reference that an advertisement replaces, if there is one. -/
def replaced (l : Ledger) (packet : Packet) : List Ref :=
  (l.stored.lookup (ah packet).address).toList

/-- `ProcessAdvertisements::push` on references. Its outputs are the references that it
releases. -/
def push (l : Ledger) (now : ℕ) (packet : Packet) : Ledger × List Ref :=
  let address := (ah packet).address
  let own := Ref.packet l.calls
  let copy := Ref.clone l.calls
  let next := l.receive now packet
  if advertises packet then
    -- the packet of a busy agent is neither stored nor killed
    if busy packet then ({ next with stored := l.others packet }, l.replaced packet)
    else if attempts l.discovery.mn packet then
      ({ next with
          stored := (address, copy) :: l.others packet
          held := next.held ++ [copy] }, l.replaced packet ++ [own])
    else ({ next with stored := (address, own) :: l.others packet }, l.replaced packet)
  else (next, [own])

/-- The ways through `push`. -/
theorem push_cases (l : Ledger) (now : ℕ) (packet : Packet) :
    (¬ advertises packet ∧ l.push now packet = (l.receive now packet, [.packet l.calls])) ∨
    (advertises packet ∧ busy packet ∧ l.push now packet =
      ({ l.receive now packet with stored := l.others packet }, l.replaced packet)) ∨
    (advertises packet ∧ ¬ busy packet ∧ attempts l.discovery.mn packet ∧ l.push now packet =
      ({ l.receive now packet with
          stored := ((ah packet).address, .clone l.calls) :: l.others packet
          held := (l.receive now packet).held ++ [.clone l.calls] },
        l.replaced packet ++ [.packet l.calls])) ∨
    (advertises packet ∧ ¬ busy packet ∧ ¬ attempts l.discovery.mn packet ∧ l.push now packet =
      ({ l.receive now packet with
          stored := ((ah packet).address, .packet l.calls) :: l.others packet },
        l.replaced packet)) := by
  unfold push
  by_cases hadv : advertises packet
  · by_cases hbusy : busy packet
    · simp [hadv, hbusy]
    · by_cases hatt : attempts l.discovery.mn packet
      · simp [hadv, hbusy, hatt]
      · simp [hadv, hbusy, hatt]
  · simp [hadv]

/-- The timers kill no packet, and the clones that they hand on are made for the purpose. -/
def step (l : Ledger) : Discovery.Input → Ledger × List Ref
  | .push now packet => l.push now packet
  | .fire now choice i =>
    ({ l with discovery := (Discovery.step l.discovery (.fire now choice i)).1 }, [])
  | .other mn => ({ l with discovery := (Discovery.step l.discovery (.other mn)).1 }, [])

/-- Over a run and the destruction of the element every reference is released exactly once. -/
def ReleasedOnce (l : Ledger) (is : List Discovery.Input) : Prop :=
  let l' := Runs.final step l is
  ∀ r ∈ l'.held, (Runs.trace step l is ++ destroyed l'.stored).count r = 1

instance (l : Ledger) (is : List Discovery.Input) : Decidable (ReleasedOnce l is) :=
  inferInstanceAs (Decidable (∀ r ∈ _, _))

theorem discovery_step (l : Ledger) (i : Discovery.Input) :
    (step l i).1.discovery = (Discovery.step l.discovery i).1 := by
  cases i with
  | push now packet =>
    change (l.push now packet).1.discovery = _
    rcases l.push_cases now packet with ⟨-, h⟩ | ⟨-, -, h⟩ | ⟨-, -, -, h⟩ | ⟨-, -, -, h⟩
    all_goals
      rw [h]
      rfl
  | fire now choice i => rfl
  | other mn => rfl

/-- The ledger follows the mobile node, and has no influence on it. -/
theorem discovery_final (l : Ledger) (is : List Discovery.Input) :
    (Runs.final step l is).discovery = Runs.final Discovery.step l.discovery is := by
  induction is generalizing l with
  | nil => rfl
  | cons i is ih =>
    rw [Runs.final, Runs.final, ih, discovery_step]

/-- The references are stored under the agents whose advertisements are. -/
def Mirrors (l : Ledger) : Prop :=
  Discovery.WellFormed l.discovery ∧ l.stored.map Prod.fst = keys l.discovery.mn

theorem keys_others (l : Ledger) (h : Mirrors l) (packet : Packet) :
    (l.others packet).map Prod.fst =
      (keys l.discovery.mn).filter (fun a => a ≠ (ah packet).address) := by
  rw [← h.2, others, List.filter_map]
  rfl

theorem mirrors_push (l : Ledger) (h : Mirrors l) (now : ℕ) (packet : Packet) :
    (l.push now packet).1.stored.map Prod.fst =
      keys (Discovery.step l.discovery (.push now packet)).1.mn := by
  have hothers := l.keys_others h packet
  have hadded (r : Ref) (hadv : advertises packet) (hbusy : ¬ busy packet) :
      (((ah packet).address, r) :: l.others packet).map Prod.fst =
        keys (Discovery.step l.discovery (.push now packet)).1.mn := by
    rw [((Discovery.push_advertisement l.discovery h.1 now packet hadv).2 hbusy).2, List.map_cons,
      hothers]
  rcases l.push_cases now packet with
    ⟨hadv, hp⟩ | ⟨hadv, hbusy, hp⟩ | ⟨hadv, hbusy, -, hp⟩ | ⟨hadv, hbusy, -, hp⟩
  · rw [hp, Discovery.push_other l.discovery now packet hadv]
    exact h.2
  · rw [hp, ((Discovery.push_advertisement l.discovery h.1 now packet hadv).1 hbusy).2]
    exact hothers
  · rw [hp]
    exact hadded _ hadv hbusy
  · rw [hp]
    exact hadded _ hadv hbusy

theorem mirrors_step (l : Ledger) (i : Discovery.Input) (h : Mirrors l) : Mirrors (step l i).1 := by
  have hwf := Discovery.wellFormed_step l.discovery i h.1
  rw [← discovery_step] at hwf
  refine ⟨hwf, ?_⟩
  rw [discovery_step]
  cases i with
  | push now packet => exact l.mirrors_push h now packet
  | fire now choice i =>
    rw [Discovery.keys_fire l.discovery h.1 now choice i]
    exact h.2
  | other mn => exact h.2

theorem mirrors_final (mn : MNInfo) (h : mn.advertisements = []) (is : List Discovery.Input) :
    Mirrors (Runs.final step (configure mn) is) := by
  apply Runs.history_invariant step (configure mn) (fun _ _ l => Mirrors l)
  · refine ⟨Discovery.wellFormed_configure mn h, ?_⟩
    rw [configure, Discovery.configure, keys, h]
    rfl
  · intro is i hi
    exact mirrors_step _ i hi

/-- The ledger releases as many references as the handler kills and hands on packets. -/
theorem length_push (l : Ledger) (h : Mirrors l) (now : ℕ) (packet : Packet) :
    let r := ProcessAdvertisements.push l.discovery.pa l.discovery.mn now packet
    (l.push now packet).2.length = r.killed.length+r.acts.countP Action.disposes := by
  intro r
  have hsome (a : IPAddress) :
      (l.stored.lookup a).isSome = (l.discovery.mn.advertisements.lookup a).isSome := by
    rw [Bool.eq_iff_iff, isSome_lookup_iff, isSome_lookup_iff, h.2]
    rfl
  have hold : (l.replaced packet).length =
      (l.discovery.mn.advertisements.lookup (ah packet).address).toList.length := by
    rw [replaced, Option.length_toList, Option.length_toList, hsome]
  have hr : r = ProcessAdvertisements.push l.discovery.pa l.discovery.mn now packet := rfl
  unfold ProcessAdvertisements.push at hr
  dsimp only at hr
  rcases l.push_cases now packet with
    ⟨hadv, hp⟩ | ⟨hadv, hbusy, hp⟩ | ⟨hadv, hbusy, hatt, hp⟩ | ⟨hadv, hbusy, hatt, hp⟩
  · rw [if_neg hadv] at hr
    rw [hp, hr]
    rfl
  · rw [if_pos hadv, if_pos hbusy] at hr
    rw [hp, hr]
    exact hold
  · rw [if_pos hadv, if_neg hbusy, if_pos hatt] at hr
    rw [hp, hr]
    exact (List.length_append).trans (congrArg (·+1) hold)
  · rw [if_pos hadv, if_neg hbusy, if_neg hatt] at hr
    rw [hp, hr]
    exact hold

/-- A timer kills nothing, and the destructor of the ledger as many references as that of the
element kills packets. -/
theorem length_rest (l : Ledger) (h : Mirrors l) (now choice i : ℕ) :
    (runTimer l.discovery.pa l.discovery.mn now choice i).killed = [] ∧
      (destroyed l.stored).length = (destroyed l.discovery.mn.advertisements).length := by
  constructor
  · have hretry : ∀ pa mn, (retry pa mn now choice).killed = [] := by
      intro pa mn
      unfold retry
      split_ifs
      · split
        · rfl
        · rfl
      · rfl
    unfold runTimer
    split
    · rfl
    · dsimp only
      split
      · rfl
      · split_ifs
        · exact hretry _ _
        · rfl
  · have hlen : l.stored.length = l.discovery.mn.advertisements.length := by
      rw [← List.length_map Prod.fst, h.2, keys, List.length_map]
    unfold destroyed
    simp [hlen]

/-- The account of the references after a run. Those that are lost are the packets of the busy
agents. -/
def Balanced (is : List Discovery.Input) (released : List Ref) (l : Ledger) : Prop :=
  Mirrors l ∧ (∀ r ∈ l.held, r.call < l.calls) ∧
    ∃ lost, Custody.Accounted l.held released (l.stored.map Prod.snd) lost ∧
      (lost = [] ↔ ∀ i ∈ is, ¬ Discovery.Withdraws i)

theorem perm_stored (l : Ledger) (h : Mirrors l) (packet : Packet) :
    (l.stored.map Prod.snd).Perm (l.replaced packet ++ (l.others packet).map Prod.snd) := by
  apply Custody.perm_lookup_filter
  rw [h.2]
  exact h.1.keys_nodup

theorem balanced_push (is : List Discovery.Input) (released : List Ref) (l : Ledger)
    (h : Balanced is released l) (now : ℕ) (packet : Packet) :
    Balanced (is ++ [.push now packet]) (released ++ (l.push now packet).2)
      (l.push now packet).1 := by
  obtain ⟨hmirrors, hcalls, lost, hacc, hlost⟩ := h
  have hperm := l.perm_stored hmirrors packet
  -- neither the packet nor its clone has been seen before
  have hown : Ref.packet l.calls ∉ l.held := fun hr => Nat.lt_irrefl _ (hcalls _ hr)
  have hcopy : Ref.clone l.calls ∉ l.held ++ [Ref.packet l.calls] := by
    intro hr
    rcases List.mem_append.mp hr with hr | hr
    · exact Nat.lt_irrefl _ (hcalls _ hr)
    · cases List.mem_singleton.mp hr
  have hheld : ∀ r ∈ (l.receive now packet).held, r.call < l.calls+1 := by
    intro r hr
    rcases List.mem_append.mp hr with hr | hr
    · exact Nat.lt_succ_of_lt (hcalls r hr)
    · rw [List.mem_singleton.mp hr]
      exact Nat.lt_succ_self _
  have hsame (hi : ¬ Discovery.Withdraws (.push now packet)) :
      lost = [] ↔ ∀ i ∈ is ++ [.push now packet], ¬ Discovery.Withdraws i :=
    hlost.trans (Discovery.withdraws_concat is _ hi).symm
  refine ⟨mirrors_step l (.push now packet) hmirrors, ?_⟩
  rcases l.push_cases now packet with
    ⟨hadv, hp⟩ | ⟨hadv, hbusy, hp⟩ | ⟨hadv, hbusy, -, hp⟩ | ⟨hadv, hbusy, -, hp⟩
  · rw [hp]
    exact ⟨hheld, lost, hacc.pass _ hown, hsame (fun hw => hadv hw.1)⟩
  · -- the packet of a busy agent is lost
    rw [hp]
    refine ⟨hheld, lost ++ [Ref.packet l.calls], (hacc.lose _ hown).release _ _ hperm, ?_⟩
    apply iff_of_false
    · simp
    · intro hall
      exact hall (.push now packet) (by simp) ⟨hadv, hbusy⟩
  · rw [hp, ← List.append_assoc]
    refine ⟨?_, lost, ((hacc.release _ _ hperm).pass _ hown).keep _ hcopy,
      hsame (fun hw => hbusy hw.2)⟩
    intro r hr
    rcases List.mem_append.mp hr with hr | hr
    · exact hheld r hr
    · rw [List.mem_singleton.mp hr]
      exact Nat.lt_succ_self _
  · rw [hp]
    exact ⟨hheld, lost, (hacc.release _ _ hperm).keep _ hown, hsame (fun hw => hbusy hw.2)⟩

/-- A step that brings no packet leaves the account as it is. -/
theorem balanced_silent (is : List Discovery.Input) (released : List Ref) (l : Ledger)
    (h : Balanced is released l) (i : Discovery.Input) (hi : ¬ Discovery.Withdraws i)
    (hstep : step l i = ({ l with discovery := (Discovery.step l.discovery i).1 }, [])) :
    Balanced (is ++ [i]) (released ++ (step l i).2) (step l i).1 := by
  obtain ⟨hmirrors, hcalls, lost, hacc, hlost⟩ := h
  refine ⟨mirrors_step l i hmirrors, ?_⟩
  rw [hstep, List.append_nil]
  exact ⟨hcalls, lost, hacc, hlost.trans (Discovery.withdraws_concat is i hi).symm⟩

theorem balanced_final (mn : MNInfo) (h : mn.advertisements = []) (is : List Discovery.Input) :
    Balanced is (Runs.trace step (configure mn) is) (Runs.final step (configure mn) is) := by
  apply Runs.history_invariant step (configure mn) Balanced
  · refine ⟨mirrors_final mn h [], ?_, [], Custody.accounted_nil, ?_⟩
    · intro r hr
      cases hr
    · simp
  · intro is i hbal
    cases i with
    | push now packet => exact balanced_push is _ _ hbal now packet
    | fire now choice i => exact balanced_silent is _ _ hbal _ (fun hw => hw) rfl
    | other mn' => exact balanced_silent is _ _ hbal _ (fun hw => hw) rfl

end Ledger

/-- A list without duplicates has at most one entry if all its entries are equal. -/
theorem length_le_one_iff {α : Type} (l : List α) (h : l.Nodup) :
    l.length ≤ 1 ↔ ∀ a ∈ l, ∀ b ∈ l, a = b := by
  match l, h with
  | [], _ => simp
  | [a], _ => simp
  | a :: b :: l, h =>
    have hne : a ≠ b := fun heq => (List.nodup_cons.mp h).1 (by simp [heq])
    apply iff_of_false
    · simp
    · intro hall
      exact hne (hall a (by simp) b (by simp))

/-- Over a run of `ProcessAdvertisements` and its destruction every packet that it was given and
every clone that it stored is released exactly once, if and only if no agent that advertised was
busy and no two agents advertised. -/
theorem released_once_iff (homeAgent homeAddress gateway : IPAddress) (lifetime : UInt16)
    (is : List Discovery.Input) :
    Ledger.ReleasedOnce
        (Ledger.configure (MNInfo.configure homeAgent homeAddress gateway lifetime)) is ↔
      (∀ i ∈ is, ¬ Discovery.Withdraws i) ∧
        ∀ a ∈ is.filterMap Discovery.advertiser, ∀ b ∈ is.filterMap Discovery.advertiser, a = b := by
  let mn := MNInfo.configure homeAgent homeAddress gateway lifetime
  let l := Runs.final Ledger.step (Ledger.configure mn) is
  obtain ⟨⟨hwf, hkeys⟩, -, lost, hacc, hlost⟩ := Ledger.balanced_final mn rfl is
  have honce := hacc.each_once_iff l.stored.length
  have hlen : l.stored.length = (ProcessAdvertisements.keys l.discovery.mn).length := by
    rw [← hkeys, List.length_map]
  have hfew : l.stored.map Prod.snd = [] ∨ l.stored.length = 1 ↔
      ∀ a ∈ ProcessAdvertisements.keys l.discovery.mn,
        ∀ b ∈ ProcessAdvertisements.keys l.discovery.mn, a = b := by
    rw [← length_le_one_iff _ hwf.keys_nodup, ← hlen, List.map_eq_nil_iff, ← List.length_eq_zero_iff]
    omega
  change (∀ r ∈ l.held, _) ↔ _
  unfold destroyed
  rw [honce, hfew, hlost]
  -- without busy agents, those that are stored are those that advertised
  apply and_congr_right
  intro hbusy
  have hmem := Discovery.mem_keys_final mn rfl is hbusy
  have hfollows : l.discovery = Runs.final Discovery.step (Discovery.configure mn) is :=
    Ledger.discovery_final (Ledger.configure mn) is
  rw [← hfollows] at hmem
  simp only [hmem]

namespace Deployment

/-- The foreign agent has no room for another node. -/
def busyAdvertisement : Packet := ({ foreignAdvertiser with busy := true }.sendPacket 0xffffffff).2

end Deployment

/-- With two agents stored, the destructor releases both clones twice; and the packet of a busy
agent is never released. -/
theorem advertisements_released_wrongly :
    let l := Ledger.configure Deployment.info
    let releases := fun is => Runs.trace Ledger.step l is ++
      destroyed (Runs.final Ledger.step l is).stored
    let two : List Discovery.Input :=
      [.push 0 Deployment.foreignAdvertisement, .push 1 Deployment.homeAdvertisement]
    let busy : List Discovery.Input := [.push 0 Deployment.busyAdvertisement]
    (releases two).count (.clone 0) = 2 ∧ (releases two).count (.clone 1) = 2 ∧
      ¬ Ledger.ReleasedOnce l two ∧
      (releases busy).count (.packet 0) = 0 ∧ ¬ Ledger.ReleasedOnce l busy := by
  decide +kernel

end MobileIP
