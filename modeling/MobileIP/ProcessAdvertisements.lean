import MobileIP.MobileNode

/-! The mobile node's element `ProcessAdvertisements`, which stores the advertisement of
every agent with a timer for each, and hands some of them to `RegReq`. -/
namespace MobileIP

open LittleEndian VectorSearch

/-- An entry of the vector `_timers`: an agent and whether its `Timer` is scheduled. -/
structure AgentTimer where
  agent : IPAddress
  scheduled : Bool
  deriving DecidableEq, Repr

/-- A `Timer` is copied without its schedule. -/
def AgentTimer.copy (t : AgentTimer) : AgentTimer := { t with scheduled := false }

structure ProcessAdvertisements where
  timers : List AgentTimer
  -- the slots that the vector has allocated
  capacity : ℕ
  -- time in microseconds
  latestRegAttempt : ℕ
  deriving DecidableEq, Repr

namespace ProcessAdvertisements

def configure : ProcessAdvertisements := ⟨[], 0, 0⟩

def iph (p : Packet) : ClickIp := ClickIp.ofBytes p.data

def ah (p : Packet) : AdvertisementH := AdvertisementH.ofBytes (p.data.drop sizeofClickIp)

def ahe (p : Packet) : AdvertisementHE :=
  AdvertisementHE.ofBytes (p.data.drop (sizeofClickIp+sizeofAdvertisementH))

def busy (p : Packet) : Prop := ((ahe p).flags >>> 6) &&& 1 ≠ 0

instance (p : Packet) : Decidable (busy p) := inferInstanceAs (Decidable (_ ≠ _))

/-- `erase` of the vector: the timers behind the slot move up, each by a copy. -/
def eraseTimer (timers : List AgentTimer) (i : ℕ) : List AgentTimer :=
  timers.take i ++ (timers.drop (i+1)).map AgentTimer.copy

/-- `push_back` of a timer that is scheduled right after: a full vector moves to twice
the slots, again by copies. -/
def pushTimer (pa : ProcessAdvertisements) (agent : IPAddress) : ProcessAdvertisements :=
  if pa.timers.length = pa.capacity then
    { pa with
      timers := pa.timers.map AgentTimer.copy ++ [⟨agent, true⟩]
      capacity := if 0 < pa.capacity then pa.capacity*2 else 4 }
  else { pa with timers := pa.timers ++ [⟨agent, true⟩] }

/-- The timer of an agent whose advertisement is about to be replaced. -/
def forgetTimer (pa : ProcessAdvertisements) (agent : IPAddress) : ProcessAdvertisements :=
  match firstMatch (fun t => t.agent == agent) pa.timers with
  | some (i, _) => { pa with timers := eraseTimer pa.timers i }
  | none => pa

/-- The sequence number of the advertisement that is stored for an agent, the raw field. -/
def lsn (mn : MNInfo) (agent : IPAddress) : UInt16 :=
  match mn.advertisements.lookup agent with
  | some p => (ahe p).seqNr
  | none => 0xffff

/-- An advertisement that is taken for a registration attempt. Both comparisons are
between raw fields. -/
def attempts (mn : MNInfo) (p : Packet) : Prop :=
  mn.connected = false ∨ ((ahe p).seqNr ≤ lsn mn (ah p).address ∧ (ahe p).seqNr < 256)

instance (mn : MNInfo) (p : Packet) : Decidable (attempts mn p) :=
  inferInstanceAs (Decidable (_ ∨ _))

/-- A packet that is an advertisement of a mobility agent. -/
def advertises (p : Packet) : Prop := (iph p).ipP = 1 ∧ (ah p).type = 9 ∧ (ahe p).type = 16

instance (p : Packet) : Decidable (advertises p) := inferInstanceAs (Decidable (_ ∧ _ ∧ _))

/-- The result of a handler: the two states after it, the stored packets that it killed
and what it did with its own packet. -/
structure Result where
  pa : ProcessAdvertisements
  mn : MNInfo
  killed : List Packet
  acts : List Action
  deriving DecidableEq, Repr

/-- `ProcessAdvertisements::push`, at the time `now`. -/
def push (pa : ProcessAdvertisements) (mn : MNInfo) (now : ℕ) (packet : Packet) : Result :=
  if advertises packet then
    let address := (ah packet).address
    let old := mn.advertisements.lookup address
    let others := mn.advertisements.filter (fun adv => adv.1 ≠ address)
    let pa := if old.isSome then forgetTimer pa address else pa
    -- a busy agent is forgotten, and the packet is neither stored nor killed
    if busy packet then ⟨pa, { mn with advertisements := others }, old.toList, []⟩
    else
      let stored := { mn with advertisements := (address, packet) :: others }
      if attempts mn packet then
        -- a clone is stored and the packet itself goes to `RegReq`
        ⟨pushTimer { pa with latestRegAttempt := now } address, stored, old.toList,
          [.forward 1 packet]⟩
      else ⟨pushTimer pa address, stored, old.toList, []⟩
  else ⟨pa, mn, [], [.forward 0 packet]⟩

/-- An advertisement with another lifetime, written into the stored packet itself. -/
def withLifetime (p : Packet) (lifetime : UInt16) : Packet :=
  { p with data := p.data.take (sizeofClickIp+6) ++
      (le16 (htons lifetime) ++ p.data.drop (sizeofClickIp+8)) }

def setScheduled (timers : List AgentTimer) (i : ℕ) (scheduled : Bool) : List AgentTimer :=
  timers.modify i (fun t => { t with scheduled := scheduled })

/-- The end of `run_timer`: without a registration, a stored advertisement is tried
again after a second. Which one `begin()` gives depends on the hash table, so it is a
choice here. -/
def retry (pa : ProcessAdvertisements) (mn : MNInfo) (now choice : ℕ) : Result :=
  if mn.connected = false ∧ pa.latestRegAttempt+1000000 < now then
    match mn.advertisements[choice%mn.advertisements.length]? with
    | some adv => ⟨{ pa with latestRegAttempt := now }, mn, [], [.emit 1 adv.2]⟩
    | none => ⟨pa, mn, [], []⟩
  else ⟨pa, mn, [], []⟩

/-- `ProcessAdvertisements::run_timer` of the timer in slot `i`, which is no longer
scheduled when it fires. -/
def runTimer (pa : ProcessAdvertisements) (mn : MNInfo) (now choice i : ℕ) : Result :=
  match pa.timers[i]? with
  -- no other timer calls the element
  | none => ⟨pa, mn, [], []⟩
  | some t =>
    let fired := { pa with timers := setScheduled pa.timers i false }
    match mn.advertisements.lookup t.agent with
    | none => ⟨fired, mn, [], []⟩
    | some packet =>
      let lifetime := ntohs (ah packet).lifetime
      if 0 < lifetime then
        let aged := withLifetime packet (lifetime-1)
        let advertisements := mn.advertisements.map
          (fun adv => if adv.1 = t.agent then (adv.1, aged) else adv)
        retry { pa with timers := setScheduled pa.timers i true }
          { mn with advertisements := advertisements } now choice
      -- the advertisement is found a second time, and the test of the source is for that case:
      -- it returns before anything is erased
      else ⟨fired, mn, [], []⟩

/-- Of the shared state the element changes only the stored advertisements. -/
theorem push_frame (pa : ProcessAdvertisements) (mn : MNInfo) (now : ℕ) (packet : Packet) :
    ∃ advertisements, (push pa mn now packet).mn = { mn with advertisements := advertisements } := by
  -- another packet, a busy agent, an attempt, an advertisement that is only stored
  unfold push
  dsimp only
  split_ifs
  all_goals exact ⟨_, rfl⟩

theorem outputs_push (pa : ProcessAdvertisements) (mn : MNInfo) (now : ℕ) (packet : Packet) :
    outputs 1 (push pa mn now packet).acts =
      if advertises packet ∧ ¬ busy packet ∧ attempts mn packet then [packet] else [] := by
  unfold push
  dsimp only
  split_ifs with hadv hbusy hatt hall hall hall
  all_goals simp_all

theorem retry_frame (pa : ProcessAdvertisements) (mn : MNInfo) (now choice : ℕ) :
    (retry pa mn now choice).mn = mn ∧
      (mn.connected = true → outputs 1 (retry pa mn now choice).acts = []) := by
  unfold retry
  split_ifs with h
  · refine ⟨?_, ?_⟩
    · split
      · rfl
      · rfl
    · -- the source asks for a node that is not connected
      intro hc
      rw [h.1] at hc
      cases hc
  · exact ⟨rfl, fun _ => rfl⟩

/-- A timer hands an advertisement on only while the node is not connected. -/
theorem runTimer_frame (pa : ProcessAdvertisements) (mn : MNInfo) (now choice i : ℕ) :
    (∃ advertisements,
      (runTimer pa mn now choice i).mn = { mn with advertisements := advertisements }) ∧
      (mn.connected = true → outputs 1 (runTimer pa mn now choice i).acts = []) := by
  unfold runTimer
  split
  · exact ⟨⟨_, rfl⟩, fun _ => rfl⟩
  · dsimp only
    split
    · exact ⟨⟨_, rfl⟩, fun _ => rfl⟩
    · split_ifs
      · have hr := retry_frame { pa with timers := setScheduled pa.timers i true }
        exact ⟨⟨_, (hr _ now choice).1⟩, fun hc => (hr _ now choice).2 hc⟩
      · exact ⟨⟨_, rfl⟩, fun _ => rfl⟩

end ProcessAdvertisements

end MobileIP
