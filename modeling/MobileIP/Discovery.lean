import MobileIP.AgentTimers
import MobileIP.Restart
import MobileIP.Solicitation

/-! The agents that a mobile node knows of, over whole runs. `ProcessAdvertisements` keeps a map
of advertisements and a vector of timers in step by hand. -/
namespace MobileIP

open LittleEndian VectorSearch

/-- The part of the mobile node that deals with advertisements. -/
structure Discovery where
  pa : ProcessAdvertisements
  mn : MNInfo
  -- the agents whose stored lifetime has been found zero by their timer
  expired : List IPAddress
  deriving DecidableEq, Repr

namespace Discovery

open ProcessAdvertisements

inductive Input where
  | push (now : ℕ) (packet : Packet)
  -- the timer in a slot fires
  | fire (now choice i : ℕ)
  -- the other elements change anything but the stored advertisements
  | other (mn : MNInfo)

def configure (mn : MNInfo) : Discovery where
  pa := ProcessAdvertisements.configure
  mn := mn
  expired := []

def step (s : Discovery) : Input → Discovery × List Action
  | .push now packet =>
    let r := ProcessAdvertisements.push s.pa s.mn now packet
    -- a new advertisement has not been found expired
    (⟨r.pa, r.mn, if advertises packet then s.expired.filter (fun a => a ≠ (ah packet).address)
      else s.expired⟩, r.acts)
  | .fire now choice i =>
    match s.pa.timers[i]? with
    | some t =>
      -- a timer that is not scheduled does not fire
      if t.scheduled then
        let r := runTimer s.pa s.mn now choice i
        (⟨r.pa, r.mn, if callback s.pa s.mn i = .found then t.agent :: s.expired else s.expired⟩,
          r.acts)
      else (s, [])
    | none => (s, [])
  | .other mn => ({ s with mn := { mn with advertisements := s.mn.advertisements } }, [])

/-- The map and the vector know the same agents, each of them once. -/
structure WellFormed (s : Discovery) : Prop where
  keys_nodup : (keys s.mn).Nodup
  agents_nodup : (agents s.pa.timers).Nodup
  same : ∀ a, a ∈ agents s.pa.timers ↔ a ∈ keys s.mn
  fits : s.pa.timers.length ≤ s.pa.capacity

/-- Every agent that has not been found expired has a timer that runs. -/
def Running (s : Discovery) : Prop :=
  ∀ a ∈ keys s.mn, a ∉ s.expired → Scheduled s.pa.timers a

-- the addresses are a finite type too, which must not be searched
instance (s : Discovery) : Decidable (Running s) :=
  List.decidableBAll (fun a => a ∉ s.expired → Scheduled s.pa.timers a) (keys s.mn)

/-- The steps that stop no timer of an agent that has not expired: an advertisement must not
come while such a timer stands behind the one of its agent, and none of a new agent while the
vector is full. -/
def KeepsTimers (s : Discovery) : Input → Prop
  | .push _ packet =>
    advertises packet →
      (∀ t ∈ behind s.pa.timers (ah packet).address, t.agent ∈ s.expired) ∧
      (¬ busy packet → s.mn.advertisements.lookup (ah packet).address = none →
        s.pa.timers.length = s.pa.capacity → ∀ t ∈ s.pa.timers, t.agent ∈ s.expired)
  | .fire _ _ _ => True
  | .other _ => True

instance (s : Discovery) : (i : Input) → Decidable (KeepsTimers s i)
  | .push _ _ => inferInstanceAs (Decidable (_ → _ ∧ _))
  | .fire _ _ _ => inferInstanceAs (Decidable True)
  | .other _ => inferInstanceAs (Decidable True)

theorem wellFormed_configure (mn : MNInfo) (h : mn.advertisements = []) :
    WellFormed (configure mn) where
  keys_nodup := by
    rw [configure, keys, h]
    exact List.nodup_nil
  agents_nodup := List.nodup_nil
  same := by
    intro a
    rw [configure, keys, h]
    exact Iff.rfl
  fits := Nat.le_refl 0

/-- What an advertisement does to the two containers: the agent is taken out of both, and
comes back to both unless it is busy. -/
theorem push_advertisement (s : Discovery) (h : WellFormed s) (now : ℕ) (packet : Packet)
    (hadv : advertises packet) :
    let s' := (step s (.push now packet)).1
    let agent := (ah packet).address
    (busy packet → s'.pa = forgetTimer s.pa agent ∧
      keys s'.mn = (keys s.mn).filter (fun a => a ≠ agent)) ∧
    (¬ busy packet → (∃ attempt,
        s'.pa = pushTimer { forgetTimer s.pa agent with latestRegAttempt := attempt } agent) ∧
      keys s'.mn = agent :: (keys s.mn).filter (fun a => a ≠ agent)) := by
  intro s' agent
  -- an agent without a stored advertisement has no timer to forget
  have hforget : (if (s.mn.advertisements.lookup agent).isSome then forgetTimer s.pa agent
      else s.pa) = forgetTimer s.pa agent := by
    split_ifs with hsome
    · rfl
    · rw [forgetTimer_of_not_mem]
      rw [h.same, mem_keys_iff, ← Option.isSome_iff_exists]
      exact hsome
  have hkeys : (s.mn.advertisements.filter (fun adv => adv.1 ≠ agent)).map Prod.fst =
      (keys s.mn).filter (fun a => a ≠ agent) := by
    rw [keys, List.filter_map]
    rfl
  let r := ProcessAdvertisements.push s.pa s.mn now packet
  have hr : r = ProcessAdvertisements.push s.pa s.mn now packet := rfl
  change (_ → r.pa = _ ∧ keys r.mn = _) ∧ (_ → (∃ attempt, r.pa = _) ∧ keys r.mn = _)
  unfold ProcessAdvertisements.push at hr
  rw [if_pos hadv] at hr
  dsimp only at hr
  rw [hforget] at hr
  constructor
  · intro hbusy
    rw [if_pos hbusy] at hr
    rw [hr]
    exact ⟨rfl, hkeys⟩
  · intro hbusy
    rw [if_neg hbusy] at hr
    split_ifs at hr
    · rw [hr]
      exact ⟨⟨now, rfl⟩, congrArg (agent :: ·) hkeys⟩
    · rw [hr]
      exact ⟨⟨(forgetTimer s.pa agent).latestRegAttempt, rfl⟩, congrArg (agent :: ·) hkeys⟩

theorem push_other (s : Discovery) (now : ℕ) (packet : Packet) (hadv : ¬ advertises packet) :
    (step s (.push now packet)).1 = s := by
  unfold step ProcessAdvertisements.push
  dsimp only
  rw [if_neg hadv, if_neg hadv]

theorem wellFormed_push (s : Discovery) (h : WellFormed s) (now : ℕ) (packet : Packet) :
    WellFormed (step s (.push now packet)).1 := by
  by_cases hadv : advertises packet
  · obtain ⟨hb, hnb⟩ := push_advertisement s h now packet hadv
    have hagents := agents_forgetTimer s.pa (ah packet).address h.agents_nodup
    have hlen := length_forgetTimer s.pa (ah packet).address h.agents_nodup
    have hcap := capacity_forgetTimer s.pa (ah packet).address
    have hfits := h.fits
    by_cases hbusy : busy packet
    · -- a busy agent is taken out of both containers
      obtain ⟨hpa, hkeys⟩ := hb hbusy
      constructor
      · rw [hkeys]
        exact h.keys_nodup.filter _
      · rw [hpa, hagents]
        exact h.agents_nodup.filter _
      · intro a
        rw [hpa, hagents, hkeys, List.mem_filter, List.mem_filter, h.same]
      · rw [hpa, hcap]
        omega
    · -- any other one is taken out and put back, so it is there once
      obtain ⟨⟨attempt, hpa⟩, hkeys⟩ := hnb hbusy
      constructor
      · rw [hkeys]
        exact List.nodup_cons.mpr ⟨by simp, h.keys_nodup.filter _⟩
      · rw [hpa, agents_pushTimer, hagents]
        refine List.nodup_append.mpr ⟨h.agents_nodup.filter _, by simp, ?_⟩
        intro a ha b hb
        rw [List.mem_singleton.mp hb]
        simpa using (List.mem_filter.mp ha).2
      · intro a
        rw [hpa, agents_pushTimer, hagents, hkeys, List.mem_append, List.mem_singleton,
          List.mem_filter, h.same, List.mem_cons, List.mem_filter]
        exact or_comm
      · rw [hpa]
        apply length_pushTimer_le
        dsimp only
        rw [hcap]
        omega
  · rw [push_other s now packet hadv]
    exact h

/-- What the timer in a slot does when it fires: its advertisement is there, so it is counted
down and the timer runs on, or it is found expired and nothing but the timer changes. -/
theorem fire_cases (s : Discovery) (h : WellFormed s) (now choice : ℕ) (pre post : List AgentTimer)
    (t : AgentTimer) (hl : s.pa.timers = pre ++ t :: post) (ht : t.scheduled = true) :
    let s' := (step s (.fire now choice pre.length)).1
    keys s'.mn = keys s.mn ∧ s'.pa.capacity = s.pa.capacity ∧
      ((callback s.pa s.mn pre.length = .counted ∧ s'.pa.timers = s.pa.timers ∧
          s'.expired = s.expired) ∨
        (callback s.pa s.mn pre.length = .found ∧
          s'.pa.timers = pre ++ { t with scheduled := false } :: post ∧ s'.mn = s.mn ∧
          s'.expired = t.agent :: s.expired)) := by
  intro s'
  have hget : s.pa.timers[pre.length]? = some t := by
    rw [hl]
    simp
  have hmem : t.agent ∈ keys s.mn := by
    rw [← h.same, hl]
    simp [agents]
  obtain ⟨p, hp⟩ := (mem_keys_iff s.mn t.agent).mp hmem
  have hon : setScheduled s.pa.timers pre.length true = s.pa.timers := by
    rw [hl, setScheduled_split, ← ht]
  have hoff : setScheduled s.pa.timers pre.length false =
      pre ++ { t with scheduled := false } :: post := by
    rw [hl, setScheduled_split]
  let r := runTimer s.pa s.mn now choice pre.length
  have hs' : s' = ⟨r.pa, r.mn, if callback s.pa s.mn pre.length = .found then
      t.agent :: s.expired else s.expired⟩ := by
    change (step s (.fire now choice pre.length)).1 = _
    rw [step, hget]
    dsimp only
    rw [if_pos ht]
  by_cases hlt : 0 < ntohs (ah p).lifetime
  · obtain ⟨hcall, hr⟩ := runTimer_counted s.pa s.mn now choice pre.length t p hget hp hlt
    have hne : callback s.pa s.mn pre.length ≠ .found := by
      rw [hcall]
      decide
    let pa' : ProcessAdvertisements :=
      { s.pa with timers := setScheduled s.pa.timers pre.length true }
    obtain ⟨htimers, hcap⟩ := retry_timers pa' (countDown s.mn t.agent p) now choice
    have hmn := (retry_frame pa' (countDown s.mn t.agent p) now choice).1
    have hr' : r = retry pa' (countDown s.mn t.agent p) now choice := hr
    rw [hs', if_neg hne, hr', htimers, hcap, hmn, keys_countDown]
    exact ⟨rfl, rfl, Or.inl ⟨hcall, hon, rfl⟩⟩
  · obtain ⟨hcall, hr⟩ := runTimer_found s.pa s.mn now choice pre.length t p hget hp hlt
    have hr' : r = ⟨{ s.pa with timers := setScheduled s.pa.timers pre.length false }, s.mn, [], []⟩ :=
      hr
    rw [hs', if_pos hcall, hr']
    exact ⟨rfl, rfl, Or.inr ⟨hcall, hoff, rfl, rfl⟩⟩

/-- A slot whose timer fires, or nothing happens. -/
theorem fire_split (s : Discovery) (now choice i : ℕ) :
    (step s (.fire now choice i)).1 = s ∨
      ∃ pre t post, s.pa.timers = pre ++ t :: post ∧ pre.length = i ∧ t.scheduled = true := by
  unfold step
  dsimp only
  split
  · next t hget =>
    by_cases ht : t.scheduled = true
    · obtain ⟨pre, post, hl, hlen⟩ := getElem?_split s.pa.timers i t hget
      exact Or.inr ⟨pre, t, post, hl, hlen, ht⟩
    · rw [if_neg ht]
      exact Or.inl rfl
  · exact Or.inl rfl

theorem agents_setScheduled_split (pre post : List AgentTimer) (t : AgentTimer) (b : Bool) :
    agents (pre ++ { t with scheduled := b } :: post) = agents (pre ++ t :: post) := by
  simp [agents]

theorem wellFormed_fire (s : Discovery) (h : WellFormed s) (now choice i : ℕ) :
    WellFormed (step s (.fire now choice i)).1 := by
  rcases fire_split s now choice i with hsame | ⟨pre, t, post, hl, rfl, ht⟩
  · rw [hsame]
    exact h
  · obtain ⟨hkeys, hcap, hcases⟩ := fire_cases s h now choice pre post t hl ht
    -- in both cases the vector has the same agents
    have htimers : agents (step s (.fire now choice pre.length)).1.pa.timers = agents s.pa.timers := by
      rcases hcases with ⟨-, htimers, -⟩ | ⟨-, htimers, -⟩
      · rw [htimers]
      · rw [htimers, hl, agents_setScheduled_split]
    have hlen := congrArg List.length htimers
    simp only [agents, List.length_map] at hlen
    constructor
    · rw [hkeys]
      exact h.keys_nodup
    · rw [htimers]
      exact h.agents_nodup
    · intro a
      rw [htimers, hkeys, h.same]
    · rw [hlen, hcap]
      exact h.fits

theorem wellFormed_step (s : Discovery) (i : Input) (h : WellFormed s) :
    WellFormed (step s i).1 := by
  cases i with
  | push now packet => exact wellFormed_push s h now packet
  | fire now choice i => exact wellFormed_fire s h now choice i
  | other mn => exact ⟨h.keys_nodup, h.agents_nodup, h.same, h.fits⟩

theorem wellFormed_final (mn : MNInfo) (h : mn.advertisements = []) (is : List Input) :
    WellFormed (Runs.final step (configure mn) is) :=
  Runs.history_invariant step (configure mn) (fun _ _ s => WellFormed s)
    (wellFormed_configure mn h)
    (fun is i hi => wellFormed_step (Runs.final step (configure mn) is) i hi) is

/-- Whether there is room for a new timer: an agent that was known has just left a slot free. -/
theorem room_forgetTimer_iff (s : Discovery) (h : WellFormed s) (agent : IPAddress) :
    (forgetTimer s.pa agent).timers.length ≠ s.pa.capacity ↔
      agent ∈ keys s.mn ∨ s.pa.timers.length ≠ s.pa.capacity := by
  have hlen := length_forgetTimer s.pa agent h.agents_nodup
  have hfits := h.fits
  rw [← h.same]
  by_cases hmem : agent ∈ agents s.pa.timers
  · rw [if_pos hmem] at hlen
    simp only [hmem, true_or, iff_true]
    omega
  · rw [if_neg hmem] at hlen
    simp only [hmem, false_or]
    omega

/-- Which timers run after an advertisement: the one of its agent unless it is busy, and of the
others those in front of it, unless the vector has to grow. -/
theorem scheduled_push (s : Discovery) (h : WellFormed s) (now : ℕ) (packet : Packet)
    (hadv : advertises packet) (a : IPAddress) :
    Scheduled (step s (.push now packet)).1.pa.timers a ↔
      if a = (ah packet).address then ¬ busy packet
      else Scheduled s.pa.timers a ∧ a ∉ agents (behind s.pa.timers (ah packet).address) ∧
        (busy packet ∨ (ah packet).address ∈ keys s.mn ∨
          s.pa.timers.length ≠ s.pa.capacity) := by
  let agent := (ah packet).address
  change _ ↔ if a = agent then _ else _ ∧ a ∉ agents (behind s.pa.timers agent) ∧
    (_ ∨ agent ∈ keys s.mn ∨ _)
  obtain ⟨hb, hnb⟩ := push_advertisement s h now packet hadv
  by_cases hbusy : busy packet
  · rw [(hb hbusy).1]
    by_cases ha : a = agent
    · have hgone : ¬ Scheduled (forgetTimer s.pa agent).timers agent := by
        intro hs
        have hmem := mem_agents_of_scheduled _ agent hs
        rw [agents_forgetTimer s.pa agent h.agents_nodup] at hmem
        simp at hmem
      rw [if_pos ha, ha]
      exact iff_of_false hgone (not_not_intro hbusy)
    · rw [if_neg ha, scheduled_forgetTimer s.pa agent a h.agents_nodup ha]
      simp only [hbusy, true_or, and_true]
  · obtain ⟨⟨attempt, hpa⟩, -⟩ := hnb hbusy
    rw [hpa, scheduled_pushTimer]
    dsimp only
    by_cases ha : a = agent
    · rw [if_pos ha]
      exact iff_of_true (Or.inl ha) hbusy
    · rw [if_neg ha, capacity_forgetTimer, room_forgetTimer_iff s h agent,
        scheduled_forgetTimer s.pa agent a h.agents_nodup ha]
      simp only [hbusy, false_or]
      constructor
      · rintro (heq | ⟨hroom, hsched, hfront⟩)
        · exact absurd heq ha
        · exact ⟨hsched, hfront, hroom⟩
      · rintro ⟨hsched, hfront, hroom⟩
        exact Or.inr ⟨hroom, hsched, hfront⟩

theorem mem_keys_push (s : Discovery) (h : WellFormed s) (now : ℕ) (packet : Packet)
    (hadv : advertises packet) (a : IPAddress) :
    a ∈ keys (step s (.push now packet)).1.mn ↔
      if a = (ah packet).address then ¬ busy packet else a ∈ keys s.mn := by
  obtain ⟨hb, hnb⟩ := push_advertisement s h now packet hadv
  by_cases hbusy : busy packet
  · rw [(hb hbusy).2]
    split_ifs with ha
    · simp [ha, hbusy]
    · simp [ha]
  · rw [(hnb hbusy).2]
    split_ifs with ha
    · simp [ha, hbusy]
    · simp [ha]

/-- The timers behind the one of an agent are those of other agents that are known too. -/
theorem mem_behind (s : Discovery) (h : WellFormed s) (agent : IPAddress) (t : AgentTimer)
    (ht : t ∈ behind s.pa.timers agent) : t.agent ≠ agent ∧ t.agent ∈ keys s.mn := by
  rcases timer_cases s.pa.timers agent h.agents_nodup with hno | ⟨pre, x, post, hl, hx, hpre, hpost⟩
  · rw [behind_of_not_mem _ agent hno] at ht
    cases ht
  · rw [hl, behind_split pre post x agent hx hpre] at ht
    refine ⟨ne_of_not_mem_agents post agent hpost t ht, ?_⟩
    rw [← h.same, hl]
    exact List.mem_map_of_mem (by simp [ht])

/-- What an advertisement must leave alone: the timers of the other agents that have not
expired. -/
theorem running_push_others (s : Discovery) (h : WellFormed s) (hrun : Running s) (now : ℕ)
    (packet : Packet) (hadv : advertises packet) :
    Running (step s (.push now packet)).1 ↔
      ∀ a ∈ keys s.mn, a ≠ (ah packet).address → a ∉ s.expired →
        a ∉ agents (behind s.pa.timers (ah packet).address) ∧
          (busy packet ∨ (ah packet).address ∈ keys s.mn ∨
            s.pa.timers.length ≠ s.pa.capacity) := by
  have hexpired : (step s (.push now packet)).1.expired =
      s.expired.filter (fun a => a ≠ (ah packet).address) := if_pos hadv
  have hmem : ∀ a, a ≠ (ah packet).address →
      (a ∈ (step s (.push now packet)).1.expired ↔ a ∈ s.expired) := by
    intro a hne
    rw [hexpired, List.mem_filter]
    simp [hne]
  constructor
  · intro hrun' a ha hne hnot
    have hsched := hrun' a
    rw [mem_keys_push s h now packet hadv, if_neg hne, hmem a hne,
      scheduled_push s h now packet hadv, if_neg hne] at hsched
    exact (hsched ha hnot).2
  · intro hothers a ha hnot
    rw [mem_keys_push s h now packet hadv] at ha
    rw [scheduled_push s h now packet hadv]
    by_cases hne : a = (ah packet).address
    · -- the agent itself has just got a timer, if it is stored
      rw [if_pos hne] at ha ⊢
      exact ha
    · rw [if_neg hne] at ha ⊢
      rw [hmem a hne] at hnot
      exact ⟨hrun a ha hnot, hothers a ha hne hnot⟩

/-- An advertisement keeps the timers running exactly if it stops none that matters. -/
theorem running_push_iff (s : Discovery) (h : WellFormed s) (hrun : Running s) (now : ℕ)
    (packet : Packet) :
    Running (step s (.push now packet)).1 ↔ KeepsTimers s (.push now packet) := by
  by_cases hadv : advertises packet
  · have hnone : s.mn.advertisements.lookup (ah packet).address = none ↔
        (ah packet).address ∉ keys s.mn := by
      rw [mem_keys_iff, ← Option.isSome_iff_exists, Option.not_isSome_iff_eq_none]
    rw [running_push_others s h hrun now packet hadv]
    constructor
    · intro hothers _
      constructor
      · intro t ht
        obtain ⟨hne, hkey⟩ := mem_behind s h _ t ht
        by_contra hnot
        exact (hothers t.agent hkey hne hnot).1 (List.mem_map_of_mem ht)
      · intro hbusy hlookup hfull t ht
        have hkey : t.agent ∈ keys s.mn := (h.same t.agent).mp (List.mem_map_of_mem ht)
        have hout := hnone.mp hlookup
        have hne : t.agent ≠ (ah packet).address := fun heq => hout (heq ▸ hkey)
        by_contra hnot
        rcases (hothers t.agent hkey hne hnot).2 with hb | hin | hroom
        · exact hbusy hb
        · exact hout hin
        · exact hroom hfull
    · intro hkeep a ha hne hnot
      obtain ⟨hbehind, hgrow⟩ := hkeep hadv
      constructor
      · intro hmem
        obtain ⟨t, ht, rfl⟩ := List.mem_map.mp hmem
        exact hnot (hbehind t ht)
      · -- otherwise the vector would grow over a timer that runs
        by_contra hall
        simp only [not_or, not_not] at hall
        obtain ⟨t, ht, rfl, -⟩ := hrun a ha hnot
        exact hnot (hgrow hall.1 (hnone.mpr hall.2.1) hall.2.2 t ht)
  · rw [push_other s now packet hadv]
    exact iff_of_true hrun (fun h => absurd h hadv)

/-- A timer that fires runs on, or its agent has expired. -/
theorem running_fire (s : Discovery) (h : WellFormed s) (hrun : Running s) (now choice i : ℕ) :
    Running (step s (.fire now choice i)).1 := by
  rcases fire_split s now choice i with hsame | ⟨pre, t, post, hl, rfl, ht⟩
  · rw [hsame]
    exact hrun
  · obtain ⟨hkeys, -, hcases⟩ := fire_cases s h now choice pre post t hl ht
    intro a ha hnot
    rw [hkeys] at ha
    rcases hcases with ⟨-, htimers, hexp⟩ | ⟨-, htimers, -, hexp⟩
    · rw [hexp] at hnot
      rw [htimers]
      exact hrun a ha hnot
    · rw [hexp, List.mem_cons, not_or] at hnot
      have hsched := hrun a ha hnot.2
      -- the timer that stopped is another agent's
      have hself : ∀ b, ¬ Scheduled [{ t with scheduled := b }] a := by
        rintro b ⟨x, hx, hagent, -⟩
        rw [List.mem_singleton.mp hx] at hagent
        exact hnot.1 hagent.symm
      rw [hl, List.append_cons] at hsched
      rw [htimers, List.append_cons]
      simp only [scheduled_append, hself, or_false] at hsched ⊢
      exact hsched

theorem running_step_iff (s : Discovery) (i : Input) (h : WellFormed s ∧ Running s) :
    WellFormed (step s i).1 ∧ Running (step s i).1 ↔ KeepsTimers s i := by
  have hwf := wellFormed_step s i h.1
  cases i with
  | push now packet =>
    rw [← running_push_iff s h.1 h.2 now packet]
    exact and_iff_right hwf
  | fire now choice i => exact iff_of_true ⟨hwf, running_fire s h.1 h.2 now choice i⟩ trivial
  | other mn => exact iff_of_true ⟨hwf, h.2⟩ trivial

/-- The step from `s` to `s'` forgets an agent and nothing else. -/
def Forgets (agent : IPAddress) (s s' : Discovery) : Prop :=
  agent ∉ keys s'.mn ∧ agent ∉ agents s'.pa.timers ∧
    (∀ a, a ≠ agent → s'.mn.advertisements.lookup a = s.mn.advertisements.lookup a) ∧
    s'.pa.timers.filter (fun t => t.agent ≠ agent) = s.pa.timers.filter (fun t => t.agent ≠ agent) ∧
    (s.mn.foreignAgent = agent → s'.mn.connected = false)

/-- Nothing is heard of an agent. -/
def Silent (agent : IPAddress) : Input → Prop
  | .push _ packet => ¬ (advertises packet ∧ (ah packet).address = agent)
  | .fire _ _ _ => True
  | .other _ => True

theorem mem_keys_silent (s : Discovery) (h : WellFormed s) (agent : IPAddress) (i : Input)
    (hi : Silent agent i) (hmem : agent ∈ keys s.mn) : agent ∈ keys (step s i).1.mn := by
  cases i with
  | push now packet =>
    by_cases hadv : advertises packet
    · have hne : ¬ agent = (ah packet).address := fun heq => hi ⟨hadv, heq.symm⟩
      rw [mem_keys_push s h now packet hadv, if_neg hne]
      exact hmem
    · rw [push_other s now packet hadv]
      exact hmem
  | fire now choice i =>
    rcases fire_split s now choice i with hsame | ⟨pre, t, post, hl, rfl, ht⟩
    · rw [hsame]
      exact hmem
    · rw [(fire_cases s h now choice pre post t hl ht).1]
      exact hmem
  | other mn => exact hmem

theorem mem_keys_silent_run (s : Discovery) (h : WellFormed s) (agent : IPAddress)
    (hmem : agent ∈ keys s.mn) (is : List Input) (hsilent : ∀ i ∈ is, Silent agent i) :
    agent ∈ keys (Runs.final step s is).mn := by
  -- induction on the steps; the state is well formed before each of them
  induction is generalizing s with
  | nil => exact hmem
  | cons i is ih =>
    have hi := hsilent i List.mem_cons_self
    exact ih (step s i).1 (wellFormed_step s i h) (mem_keys_silent s h agent i hi hmem)
      (fun j hj => hsilent j (List.mem_cons_of_mem i hj))

/-- A node that knows of an agent does not solicit. -/
theorem solicitation_silent (e : Solicitation) (mn : MNInfo) (agent : IPAddress)
    (hmem : agent ∈ keys mn) : (e.runTimer mn).2 = [] := by
  have hne : mn.advertisements ≠ [] := by
    intro hnil
    rw [keys, hnil] at hmem
    cases hmem
  unfold Solicitation.runTimer
  rw [if_pos (Or.inr hne)]

end Discovery

open Discovery ProcessAdvertisements

/-- An agent whose advertisement is found expired is never forgotten at that, and while
nothing is heard of it, it never is: the node does not solicit any more. -/
theorem expired_agent_kept (homeAgent homeAddress gateway : IPAddress) (lifetime : UInt16)
    (is : List Discovery.Input) (now choice i : ℕ) (t : AgentTimer) (p : Packet) :
    let s := Runs.final Discovery.step
      (Discovery.configure (MNInfo.configure homeAgent homeAddress gateway lifetime)) is
    s.pa.timers[i]? = some t → t.scheduled = true →
    s.mn.advertisements.lookup t.agent = some p → ntohs (ah p).lifetime = 0 →
    ¬ Forgets t.agent s (Discovery.step s (.fire now choice i)).1 ∧
      ∀ js, (∀ j ∈ js, Silent t.agent j) →
        let s' := Runs.final Discovery.step (Discovery.step s (.fire now choice i)).1 js
        t.agent ∈ keys s'.mn ∧ ∀ e : Solicitation, (e.runTimer s'.mn).2 = [] := by
  intro s _ _ hp _
  have hwf : WellFormed s := wellFormed_final _ rfl is
  have hmem : t.agent ∈ keys s.mn := (mem_keys_iff s.mn t.agent).mpr ⟨p, hp⟩
  have hnext : t.agent ∈ keys (Discovery.step s (.fire now choice i)).1.mn :=
    mem_keys_silent s hwf t.agent (.fire now choice i) trivial hmem
  refine ⟨fun hforgets => hforgets.1 hnext, ?_⟩
  intro js hsilent s'
  have hkept : t.agent ∈ keys s'.mn :=
    mem_keys_silent_run _ (wellFormed_step s (.fire now choice i) hwf) t.agent hnext js hsilent
  exact ⟨hkept, fun e => solicitation_silent e s'.mn t.agent hkept⟩

/-- In a run every agent that has not expired has a timer that runs, in every state that is
reached, exactly if every step is one of those listed in `Discovery.KeepsTimers`. -/
theorem timers_running_iff (homeAgent homeAddress gateway : IPAddress) (lifetime : UInt16)
    (is : List Discovery.Input) :
    let s₀ := Discovery.configure (MNInfo.configure homeAgent homeAddress gateway lifetime)
    Runs.Meets Discovery.step KeepsTimers s₀ is ↔
      ∀ js, js <+: is → Running (Runs.final Discovery.step s₀ js) := by
  intro s₀
  have h₀ : WellFormed s₀ ∧ Running s₀ := by
    refine ⟨wellFormed_configure _ rfl, ?_⟩
    intro a ha
    cases ha
  -- the invariant of the run is `Running` together with what makes its step lemma exact
  rw [Runs.meets_iff_invariant Discovery.step KeepsTimers (fun s => WellFormed s ∧ Running s)
    running_step_iff s₀ h₀ is]
  constructor
  · exact fun h js hjs => (h js hjs).2
  · exact fun h js hjs => ⟨wellFormed_final _ rfl js, h js hjs⟩

/-- The map and the vector are in step in every state that is reached, so every timer that
fires finds itself and its advertisement: it counts it down, or finds it expired. -/
theorem callback_safe (homeAgent homeAddress gateway : IPAddress) (lifetime : UInt16)
    (is : List Discovery.Input) :
    let s := Runs.final Discovery.step
      (Discovery.configure (MNInfo.configure homeAgent homeAddress gateway lifetime)) is
    (agents s.pa.timers).Nodup ∧ (∀ a, a ∈ agents s.pa.timers ↔ a ∈ keys s.mn) ∧
      ∀ i t, s.pa.timers[i]? = some t → t.scheduled = true →
        (∃ p, s.mn.advertisements.lookup t.agent = some p) ∧
        (callback s.pa s.mn i = .counted ∨ callback s.pa s.mn i = .found) := by
  intro s
  have hwf : WellFormed s := wellFormed_final _ rfl is
  refine ⟨hwf.agents_nodup, hwf.same, ?_⟩
  intro i t hget _
  have hmem : t.agent ∈ keys s.mn :=
    (hwf.same t.agent).mp (List.mem_map_of_mem (List.mem_of_getElem? hget))
  obtain ⟨p, hp⟩ := (mem_keys_iff s.mn t.agent).mp hmem
  refine ⟨⟨p, hp⟩, ?_⟩
  by_cases hlt : 0 < ntohs (ah p).lifetime
  · exact Or.inl (runTimer_counted s.pa s.mn 0 0 i t p hget hp hlt).1
  · exact Or.inr (runTimer_found s.pa s.mn 0 0 i t p hget hp hlt).1

namespace Deployment

def discovery : Discovery := Discovery.configure info

/-- The foreign agent is heard of once, and then stays silent for the seconds given. -/
def silence (seconds : ℕ) : List Discovery.Input :=
  .push 0 foreignAdvertisement :: List.replicate seconds (.fire 1 0 0)

/-- The foreign agent, the home agent, and the foreign agent again. -/
def alternating : List Discovery.Input :=
  [.push 0 foreignAdvertisement, .push 1 homeAdvertisement, .push 2 (numbered 1)]

end Deployment

theorem expired_agent_kept_deployed :
    ¬ Forgets Deployment.foreignAgentPrivateAddress
      (Runs.final Discovery.step Deployment.discovery (Deployment.silence 27))
      (Discovery.step (Runs.final Discovery.step Deployment.discovery (Deployment.silence 27))
        (.fire 2 0 0)).1 := by
  let s := Runs.final Discovery.step Deployment.discovery (Deployment.silence 27)
  have hget : s.pa.timers[0]? = some ⟨Deployment.foreignAgentPrivateAddress, true⟩ := by
    decide +kernel
  have hp : s.mn.advertisements.lookup Deployment.foreignAgentPrivateAddress =
      some (withLifetime Deployment.foreignAdvertisement 0) := by
    decide +kernel
  have hzero : ntohs (ah (withLifetime Deployment.foreignAdvertisement 0)).lifetime = 0 := by
    decide +kernel
  have hinit : Discovery.configure (MNInfo.configure Deployment.homeAgentPublicAddress
      Deployment.mobileNodeAddress Deployment.homeAgentPrivateAddress 0) = Deployment.discovery := rfl
  have hkept := expired_agent_kept Deployment.homeAgentPublicAddress Deployment.mobileNodeAddress
    Deployment.homeAgentPrivateAddress 0 (Deployment.silence 27) 2 0 0
    ⟨Deployment.foreignAgentPrivateAddress, true⟩ (withLifetime Deployment.foreignAdvertisement 0)
  have hs : Runs.final Discovery.step Deployment.discovery (Deployment.silence 27) = s := rfl
  simp only [hinit, hs] at hkept ⊢
  -- the run is not looked into any more
  clear_value s
  exact (hkept hget trivial hp hzero).1

/-- The foreign agent has been silent for its 27 seconds when its timer fires once more: it is
still known, and its timer has stopped for good. -/
theorem expired_agent_not_forgotten :
    let s := Runs.final Discovery.step Deployment.discovery (Deployment.silence 27)
    let s' := (Discovery.step s (.fire 2 0 0)).1
    callback s.pa s.mn 0 = .found ∧ keys s'.mn = [Deployment.foreignAgentPrivateAddress] ∧
      s'.pa.timers = [⟨Deployment.foreignAgentPrivateAddress, false⟩] ∧
      ¬ Forgets Deployment.foreignAgentPrivateAddress s s' := by
  intro s s'
  have hkeys : keys s'.mn = [Deployment.foreignAgentPrivateAddress] := by decide +kernel
  refine ⟨by decide +kernel, hkeys, by decide +kernel, ?_⟩
  intro hforgets
  apply hforgets.1
  rw [hkeys]
  exact List.mem_singleton_self _

/-- The second advertisement of the foreign agent stops the timer of the home agent, which has
not expired. -/
theorem timers_not_running :
    let s := Runs.final Discovery.step Deployment.discovery Deployment.alternating
    Deployment.homeAgentPrivateAddress ∈ keys s.mn ∧ s.expired = [] ∧
      ¬ Scheduled s.pa.timers Deployment.homeAgentPrivateAddress ∧ ¬ Running s := by
  decide +kernel

theorem callback_safe_deployed :
    let s := Runs.final Discovery.step Deployment.discovery Deployment.alternating
    callback s.pa s.mn 1 = .counted ∨ callback s.pa s.mn 1 = .found := by
  intro s
  have hget : s.pa.timers[1]? = some ⟨Deployment.foreignAgentPrivateAddress, true⟩ := by
    decide +kernel
  have hinit : Discovery.configure (MNInfo.configure Deployment.homeAgentPublicAddress
      Deployment.mobileNodeAddress Deployment.homeAgentPrivateAddress 0) = Deployment.discovery := rfl
  have hsafe := callback_safe Deployment.homeAgentPublicAddress Deployment.mobileNodeAddress
    Deployment.homeAgentPrivateAddress 0 Deployment.alternating
  simp only [hinit] at hsafe
  exact (hsafe.2.2 1 _ hget rfl).2

end MobileIP
