import Mathlib.Data.List.TakeWhile
import MobileIP.ProcessAdvertisements

/-! The vector of timers in `ProcessAdvertisements`: which agents it knows and which timers
still run after an operation. The vector moves its timers by copies, and a copied timer does
not run. -/
namespace MobileIP

open LittleEndian VectorSearch

namespace ProcessAdvertisements

def agents (timers : List AgentTimer) : List IPAddress := timers.map AgentTimer.agent

/-- The agents whose advertisements are stored. -/
def keys (mn : MNInfo) : List IPAddress := mn.advertisements.map Prod.fst

/-- An agent has a timer that runs. -/
def Scheduled (timers : List AgentTimer) (agent : IPAddress) : Prop :=
  ∃ t ∈ timers, t.agent = agent ∧ t.scheduled = true

instance (timers : List AgentTimer) (agent : IPAddress) : Decidable (Scheduled timers agent) :=
  inferInstanceAs (Decidable (∃ t ∈ timers, _))

/-- The timers behind the one of an agent. -/
def behind (timers : List AgentTimer) (agent : IPAddress) : List AgentTimer :=
  (timers.dropWhile (fun t => t.agent ≠ agent)).tail

/-- The ways through `run_timer` of the timer in slot `i`. -/
inductive Callback where
  -- the timer is not in the vector, and the packet pointer was never set
  | uninitialised
  | noAdvertisement
  | counted
  -- the lifetime is zero and the advertisement is found a second time
  | found
  -- it is not found a second time, and its null pointer is used
  | nullPair
  deriving DecidableEq, Repr

def callback (pa : ProcessAdvertisements) (mn : MNInfo) (i : ℕ) : Callback :=
  match pa.timers[i]? with
  | none => .uninitialised
  | some t =>
    match mn.advertisements.lookup t.agent with
    | none => .noAdvertisement
    | some packet =>
      if 0 < ntohs (ah packet).lifetime then .counted
      else
        match mn.advertisements.lookup t.agent with
        | some _ => .found
        | none => .nullPair

theorem mem_keys_iff (mn : MNInfo) (agent : IPAddress) :
    agent ∈ keys mn ↔ ∃ p, mn.advertisements.lookup agent = some p := by
  rw [← Option.isSome_iff_exists, isSome_lookup_iff]
  rfl

theorem eraseTimer_split (pre post : List AgentTimer) (t : AgentTimer) :
    eraseTimer (pre ++ t :: post) pre.length = pre ++ post.map AgentTimer.copy := by
  have hdrop : (pre ++ t :: post).drop (pre.length+1) = post := by
    rw [← List.drop_drop, List.drop_left]
    rfl
  rw [eraseTimer, List.take_left, hdrop]

@[simp] theorem agents_append (l l' : List AgentTimer) : agents (l ++ l') = agents l ++ agents l' :=
  List.map_append

@[simp] theorem agents_copy (l : List AgentTimer) : agents (l.map AgentTimer.copy) = agents l := by
  rw [agents, List.map_map]
  rfl

/-- The timer of an agent, if it has one, splits the vector. -/
theorem timer_cases (timers : List AgentTimer) (agent : IPAddress) (hn : (agents timers).Nodup) :
    agent ∉ agents timers ∨
      ∃ pre t post, timers = pre ++ t :: post ∧ t.agent = agent ∧ agent ∉ agents pre ∧
        agent ∉ agents post := by
  by_cases hmem : agent ∈ agents timers
  · right
    obtain ⟨t, ht, hagent⟩ := List.mem_map.mp hmem
    obtain ⟨pre, post, rfl⟩ := List.append_of_mem ht
    have hsplit : (agents pre ++ t.agent :: agents post).Nodup := by
      simpa [agents] using hn
    obtain ⟨-, hcons, hdisj⟩ := List.nodup_append.mp hsplit
    -- the agents are distinct, so no other timer is its own
    refine ⟨pre, t, post, rfl, hagent, ?_, ?_⟩
    · exact fun hpre => hdisj agent hpre t.agent List.mem_cons_self hagent.symm
    · rw [← hagent]
      exact (List.nodup_cons.mp hcons).1
  · exact Or.inl hmem

theorem ne_of_not_mem_agents (timers : List AgentTimer) (agent : IPAddress)
    (h : agent ∉ agents timers) : ∀ t ∈ timers, t.agent ≠ agent := by
  intro t ht heq
  exact h (heq ▸ List.mem_map_of_mem ht)

theorem behind_of_not_mem (timers : List AgentTimer) (agent : IPAddress)
    (h : agent ∉ agents timers) : behind timers agent = [] := by
  have hdrop : timers.dropWhile (fun t => t.agent ≠ agent) = [] := by
    rw [List.dropWhile_eq_nil_iff]
    intro t ht
    simpa using ne_of_not_mem_agents timers agent h t ht
  rw [behind, hdrop, List.tail_nil]

theorem behind_split (pre post : List AgentTimer) (t : AgentTimer) (agent : IPAddress)
    (ht : t.agent = agent) (hpre : agent ∉ agents pre) :
    behind (pre ++ t :: post) agent = post := by
  have hdrop : (pre ++ t :: post).dropWhile (fun x => x.agent ≠ agent) = t :: post := by
    rw [List.dropWhile_append_of_pos, List.dropWhile_cons_of_neg]
    · simp [ht]
    · intro x hx
      simpa using ne_of_not_mem_agents pre agent hpre x hx
  rw [behind, hdrop, List.tail_cons]

theorem forgetTimer_of_not_mem (pa : ProcessAdvertisements) (agent : IPAddress)
    (h : agent ∉ agents pa.timers) : forgetTimer pa agent = pa := by
  have hnone : firstMatch (fun t => t.agent == agent) pa.timers = none := by
    rw [firstMatch_eq_none_iff]
    intro t ht
    simpa using ne_of_not_mem_agents pa.timers agent h t ht
  rw [forgetTimer, hnone]

theorem forgetTimer_split (pa : ProcessAdvertisements) (pre post : List AgentTimer) (t : AgentTimer)
    (agent : IPAddress) (hl : pa.timers = pre ++ t :: post) (ht : t.agent = agent)
    (hpre : agent ∉ agents pre) :
    forgetTimer pa agent = { pa with timers := pre ++ post.map AgentTimer.copy } := by
  have hm : firstMatch (fun t => t.agent == agent) pa.timers = some (pre.length, t) := by
    rw [hl]
    apply firstMatch_append _ pre post t
    · simpa using ht
    · intro x hx
      simpa using ne_of_not_mem_agents pre agent hpre x hx
  rw [forgetTimer, hm]
  dsimp only
  rw [hl, eraseTimer_split]

theorem filter_agents_of_not_mem (timers : List AgentTimer) (agent : IPAddress)
    (h : agent ∉ agents timers) : (agents timers).filter (fun a => a ≠ agent) = agents timers := by
  rw [List.filter_eq_self]
  intro a ha
  have hne : a ≠ agent := fun heq => h (heq ▸ ha)
  simpa using hne

theorem agents_forgetTimer (pa : ProcessAdvertisements) (agent : IPAddress)
    (hn : (agents pa.timers).Nodup) :
    agents (forgetTimer pa agent).timers = (agents pa.timers).filter (fun a => a ≠ agent) := by
  rcases timer_cases pa.timers agent hn with hno | ⟨pre, t, post, hl, ht, hpre, hpost⟩
  · rw [forgetTimer_of_not_mem pa agent hno, filter_agents_of_not_mem pa.timers agent hno]
  · have hcons : agents (t :: post) = agent :: agents post := by
      rw [agents, List.map_cons, ht]
      rfl
    rw [forgetTimer_split pa pre post t agent hl ht hpre, hl]
    simp only [agents_append, agents_copy, List.filter_append, hcons]
    rw [filter_agents_of_not_mem pre agent hpre, List.filter_cons_of_neg (by simp),
      filter_agents_of_not_mem post agent hpost]

theorem length_forgetTimer (pa : ProcessAdvertisements) (agent : IPAddress)
    (hn : (agents pa.timers).Nodup) :
    (forgetTimer pa agent).timers.length+(if agent ∈ agents pa.timers then 1 else 0) =
      pa.timers.length := by
  rcases timer_cases pa.timers agent hn with hno | ⟨pre, t, post, hl, ht, hpre, -⟩
  · rw [forgetTimer_of_not_mem pa agent hno, if_neg hno]
    rfl
  · have hmem : agent ∈ agents pa.timers := by
      rw [hl, ← ht]
      simp [agents]
    rw [forgetTimer_split pa pre post t agent hl ht hpre, if_pos hmem, hl]
    simp only [List.length_append, List.length_map, List.length_cons]
    omega

theorem capacity_forgetTimer (pa : ProcessAdvertisements) (agent : IPAddress) :
    (forgetTimer pa agent).capacity = pa.capacity := by
  unfold forgetTimer
  split
  · rfl
  · rfl

theorem not_scheduled_copy (l : List AgentTimer) (agent : IPAddress) :
    ¬ Scheduled (l.map AgentTimer.copy) agent := by
  rintro ⟨t, ht, -, hs⟩
  obtain ⟨t', -, rfl⟩ := List.mem_map.mp ht
  cases hs

theorem scheduled_append (l l' : List AgentTimer) (agent : IPAddress) :
    Scheduled (l ++ l') agent ↔ Scheduled l agent ∨ Scheduled l' agent := by
  unfold Scheduled
  simp only [List.mem_append, or_and_right, exists_or]

theorem mem_agents_of_scheduled (l : List AgentTimer) (agent : IPAddress) (h : Scheduled l agent) :
    agent ∈ agents l := by
  obtain ⟨t, ht, rfl, -⟩ := h
  exact List.mem_map_of_mem ht

/-- When the timer of an agent is erased, the timers behind it stop. -/
theorem scheduled_forgetTimer (pa : ProcessAdvertisements) (agent other : IPAddress)
    (hn : (agents pa.timers).Nodup) (hne : other ≠ agent) :
    Scheduled (forgetTimer pa agent).timers other ↔
      Scheduled pa.timers other ∧ other ∉ agents (behind pa.timers agent) := by
  rcases timer_cases pa.timers agent hn with hno | ⟨pre, t, post, hl, ht, hpre, -⟩
  · rw [forgetTimer_of_not_mem pa agent hno, behind_of_not_mem _ agent hno]
    simp [agents]
  · have hself : ¬ Scheduled [t] other := by
      rintro ⟨x, hx, hagent, -⟩
      rw [List.mem_singleton.mp hx, ht] at hagent
      exact hne hagent.symm
    -- the agents are distinct, so a timer in front is none of those behind
    have hdisj : other ∈ agents pre → other ∉ agents post := by
      intro hp hq
      rw [hl] at hn
      simp only [agents_append] at hn
      exact (List.nodup_append.mp hn).2.2 other hp other (by simp [agents] at hq ⊢; exact Or.inr hq) rfl
    rw [forgetTimer_split pa pre post t agent hl ht hpre, hl, behind_split pre post t agent ht hpre,
      List.append_cons]
    simp only [scheduled_append, not_scheduled_copy, hself, or_false]
    constructor
    · intro hp
      exact ⟨Or.inl hp, hdisj (mem_agents_of_scheduled pre other hp)⟩
    · rintro ⟨hp | hp, hq⟩
      · exact hp
      · exact absurd (mem_agents_of_scheduled post other hp) hq

theorem timers_pushTimer (pa : ProcessAdvertisements) (agent : IPAddress) :
    (pushTimer pa agent).timers =
      (if pa.timers.length = pa.capacity then pa.timers.map AgentTimer.copy else pa.timers) ++
        [⟨agent, true⟩] := by
  by_cases hfull : pa.timers.length = pa.capacity
  · rw [pushTimer, if_pos hfull, if_pos hfull]
  · rw [pushTimer, if_neg hfull, if_neg hfull]

/-- A new timer runs, and the others run on unless the vector has to grow. -/
theorem scheduled_pushTimer (pa : ProcessAdvertisements) (agent other : IPAddress) :
    Scheduled (pushTimer pa agent).timers other ↔
      other = agent ∨ (pa.timers.length ≠ pa.capacity ∧ Scheduled pa.timers other) := by
  have hnew : Scheduled [⟨agent, true⟩] other ↔ other = agent := by
    simp only [Scheduled, List.mem_singleton, exists_eq_left, and_true]
    exact eq_comm
  rw [timers_pushTimer, scheduled_append, hnew]
  split_ifs with hfull
  · simp only [not_scheduled_copy, hfull, false_or, ne_eq, not_true_eq_false, false_and, or_false]
  · simp only [ne_eq, hfull, not_false_eq_true, true_and]
    exact or_comm

theorem agents_pushTimer (pa : ProcessAdvertisements) (agent : IPAddress) :
    agents (pushTimer pa agent).timers = agents pa.timers ++ [agent] := by
  rw [timers_pushTimer, agents_append]
  split_ifs
  · rw [agents_copy]
    rfl
  · rfl

theorem length_pushTimer_le (pa : ProcessAdvertisements) (agent : IPAddress)
    (h : pa.timers.length ≤ pa.capacity) :
    (pushTimer pa agent).timers.length ≤ (pushTimer pa agent).capacity := by
  unfold pushTimer
  split_ifs with hfull hpos
  · simp only [List.length_append, List.length_map, List.length_singleton]
    omega
  · simp only [List.length_append, List.length_map, List.length_singleton]
    omega
  · simp only [List.length_append, List.length_singleton]
    omega

theorem retry_timers (pa : ProcessAdvertisements) (mn : MNInfo) (now choice : ℕ) :
    (retry pa mn now choice).pa.timers = pa.timers ∧
      (retry pa mn now choice).pa.capacity = pa.capacity := by
  unfold retry
  split_ifs
  · split
    · exact ⟨rfl, rfl⟩
    · exact ⟨rfl, rfl⟩
  · exact ⟨rfl, rfl⟩

/-- The advertisement of an agent, with one second less to live. -/
def countDown (mn : MNInfo) (agent : IPAddress) (packet : Packet) : MNInfo :=
  let counted := withLifetime packet (ntohs (ah packet).lifetime-1)
  { mn with
    advertisements := mn.advertisements.map
      (fun adv => if adv.1 = agent then (adv.1, counted) else adv) }

theorem keys_countDown (mn : MNInfo) (agent : IPAddress) (packet : Packet) :
    keys (countDown mn agent packet) = keys mn := by
  rw [keys, countDown, List.map_map]
  apply List.map_congr_left
  intro adv _
  rw [Function.comp_apply]
  split_ifs
  · rfl
  · rfl

section Firing

variable (pa : ProcessAdvertisements) (mn : MNInfo) (now choice i : ℕ) (t : AgentTimer)
  (p : Packet) (hget : pa.timers[i]? = some t) (hp : mn.advertisements.lookup t.agent = some p)
include hget hp

theorem runTimer_counted (hlt : 0 < ntohs (ah p).lifetime) :
    callback pa mn i = .counted ∧
      runTimer pa mn now choice i = retry { pa with timers := setScheduled pa.timers i true }
        (countDown mn t.agent p) now choice := by
  constructor
  · rw [callback, hget]
    dsimp only
    rw [hp]
    exact if_pos hlt
  · rw [runTimer, hget]
    dsimp only
    rw [hp]
    exact if_pos hlt

/-- The lifetime has run out: the advertisement is there, and for that case the source
returns. -/
theorem runTimer_found (hlt : ¬ 0 < ntohs (ah p).lifetime) :
    callback pa mn i = .found ∧
      runTimer pa mn now choice i =
        ⟨{ pa with timers := setScheduled pa.timers i false }, mn, [], []⟩ := by
  constructor
  · rw [callback, hget]
    dsimp only
    rw [hp]
    exact if_neg hlt
  · rw [runTimer, hget]
    dsimp only
    rw [hp]
    exact if_neg hlt

end Firing

/-- The timer in a slot splits the vector. -/
theorem setScheduled_split (pre post : List AgentTimer) (t : AgentTimer) (scheduled : Bool) :
    setScheduled (pre ++ t :: post) pre.length scheduled =
      pre ++ { t with scheduled := scheduled } :: post := by
  induction pre with
  | nil => rfl
  | cons x pre ih =>
    rw [setScheduled] at ih ⊢
    rw [List.cons_append, List.length_cons, List.modify_succ_cons, ih, List.cons_append]

end ProcessAdvertisements

end MobileIP
