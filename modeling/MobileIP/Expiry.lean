import MobileIP.Timeouts

/-! How long a registration stays with the foreign agent. Here the timer counts in host order,
whatever order the lifetime was stored in. -/
namespace MobileIP

open LittleEndian VectorSearch

namespace Relay

/-- The first loop of `run_timer`. -/
def eraseExpired (registrations : List (IPAddress × VEntry)) : List (IPAddress × VEntry) :=
  eraseLoop (fun reg => decide (reg.2.remainingLifetime ≤ 0)) registrations 0

/-- One round of the second loop. -/
def lower (reg : IPAddress × VEntry) : IPAddress × VEntry :=
  (reg.1, if 0 < reg.2.remainingLifetime then
    { reg.2 with remainingLifetime := reg.2.remainingLifetime-1 } else reg.2)

/-- The loops of `run_timer`, of which the first erases while it iterates. -/
theorem ageRegistrations_eq_loops (registrations : List (IPAddress × VEntry)) :
    ageRegistrations registrations = (eraseExpired registrations).map lower := by
  have hkept : ∀ reg : IPAddress × VEntry,
      (!decide (reg.2.remainingLifetime ≤ 0)) = decide (0 < reg.2.remainingLifetime) := by
    intro reg
    rw [← decide_not]
    exact decide_eq_decide.mpr UInt16.not_le
  rw [eraseExpired, eraseLoop_eq_filter]
  simp only [hkept]
  rfl

/-- What one tick leaves of a registration. -/
def ageRegistration (reg : IPAddress × VEntry) : Option (IPAddress × VEntry) :=
  if 0 < reg.2.remainingLifetime then some (lower reg) else none

theorem ageRegistrations_eq_filterMap (registrations : List (IPAddress × VEntry)) :
    ageRegistrations registrations = registrations.filterMap ageRegistration := by
  rw [ageRegistrations_eq_loops, eraseExpired, eraseLoop_eq_filter]
  induction registrations with
  | nil => rfl
  | cons reg registrations ih =>
    by_cases hlt : 0 < reg.2.remainingLifetime
    · have hage : ageRegistration reg = some (lower reg) := if_pos hlt
      have hkeep : decide (reg.2.remainingLifetime ≤ 0) = false :=
        decide_eq_false (UInt16.not_le.mpr hlt)
      rw [List.filter_cons, hkeep, List.filterMap_cons_some hage, ← ih]
      rfl
    · have hage : ageRegistration reg = none := if_neg hlt
      have hdrop : decide (reg.2.remainingLifetime ≤ 0) = true :=
        decide_eq_true (UInt16.not_lt.mp hlt)
      rw [List.filter_cons, hdrop, List.filterMap_cons_none hage, ← ih]
      rfl

/-- What should be left of a registration after `k` ticks: nothing if its lifetime is less than
that, else the registration with as much less to live. -/
def lasting (k : ℕ) (reg : IPAddress × VEntry) : Option (IPAddress × VEntry) :=
  if k ≤ reg.2.remainingLifetime.toNat then
    some (reg.1, { reg.2 with
      remainingLifetime := UInt16.ofNat (reg.2.remainingLifetime.toNat-k) })
  else none

theorem lasting_zero (reg : IPAddress × VEntry) : lasting 0 reg = some reg := by
  rw [lasting, if_pos (Nat.zero_le _), Nat.sub_zero, UInt16.ofNat_toNat]

theorem bind_lasting (k : ℕ) (reg : IPAddress × VEntry) :
    (ageRegistration reg).bind (lasting k) = lasting (k+1) reg := by
  have hv : reg.2.remainingLifetime.toNat < 65536 := reg.2.remainingLifetime.toNat_lt
  by_cases hlt : 0 < reg.2.remainingLifetime
  · have hpos := UInt16.lt_iff_toNat_lt.mp hlt
    rw [UInt16.toNat_zero] at hpos
    have hone : (reg.2.remainingLifetime-1).toNat = reg.2.remainingLifetime.toNat-1 := by
      apply UInt16.toNat_sub_of_le
      rw [UInt16.le_iff_toNat_le, UInt16.toNat_one]
      exact hpos
    have hlower : lower reg =
        (reg.1, { reg.2 with remainingLifetime := reg.2.remainingLifetime-1 }) := by
      rw [lower, if_pos hlt]
    have hiff : k ≤ reg.2.remainingLifetime.toNat-1 ↔ k+1 ≤ reg.2.remainingLifetime.toNat := by
      omega
    have hleft : reg.2.remainingLifetime.toNat-1-k = reg.2.remainingLifetime.toNat-(k+1) := by
      omega
    rw [ageRegistration, if_pos hlt, Option.bind_some, hlower, lasting, lasting]
    dsimp only
    rw [hone, hleft]
    exact if_congr hiff rfl rfl
  · -- a registration without a lifetime is gone at the first tick
    have hzero : reg.2.remainingLifetime.toNat = 0 := by
      rw [UInt16.lt_iff_toNat_lt, UInt16.toNat_zero] at hlt
      omega
    rw [ageRegistration, if_neg hlt, Option.bind_none, lasting, if_neg (by omega)]

end Relay

/-- After `k` ticks of the foreign agent's timer, and whatever requests are pending, its
registrations are those that have lived for no more than their lifetime, each by itself and in
their order, with `k` seconds less to live and otherwise unchanged. -/
theorem registrations_age (relay : Relay) (fa : FA) (k : ℕ) :
    (Relay.afterTicks relay fa k).registrations = fa.registrations.filterMap (Relay.lasting k) := by
  induction k generalizing fa with
  | zero =>
    have hall : Relay.lasting 0 = some := funext Relay.lasting_zero
    rw [hall, List.filterMap_some]
    rfl
  | succ k ih =>
    -- the first tick ages each registration, and the others age what it leaves
    have hfirst : (Relay.runTimer fa).1.registrations =
        fa.registrations.filterMap Relay.ageRegistration :=
      Relay.ageRegistrations_eq_filterMap fa.registrations
    rw [Relay.afterTicks_succ, ih, hfirst, List.filterMap_filterMap]
    simp only [Relay.bind_lasting]

end MobileIP
