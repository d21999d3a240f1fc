import MobileIP.Packet
import MobileIP.Library.Climb
import MobileIP.Library.UndoLog
import MobileIP.Library.VectorSearch
import MobileIP.Library.Runs

/-! The routing table of the agents and of the mobile node: `LinearIPLookup`, of which
`StaticIPLookup` is the variant whose table is fixed once the router runs. Routes stand in a
vector with free slots, an entry points to the first later entry that can be more specific,
and the last two lookups are cached. -/
namespace MobileIP

open VectorSearch

def matchesPrefix (a addr mask : IPAddress) : Bool := (a ^^^ addr) &&& mask == 0

/-- The mask `m` is at least as specific as `mask`. -/
def maskAsSpecific (m mask : IPAddress) : Bool := m &&& mask == mask

structure IPRoute where
  addr : IPAddress
  mask : IPAddress
  gw : IPAddress
  port : ℤ
  extra : ℕ
  deriving DecidableEq, Repr

instance : Inhabited IPRoute := ⟨⟨0, 0, 0, -1, 0⟩⟩

namespace IPRoute

def real (r : IPRoute) : Bool := decide (-0x80000000 < r.port)

def kill (r : IPRoute) : IPRoute := { r with addr := 0, mask := 0xFFFFFFFF, port := -0x80000000 }

def contains (r : IPRoute) (a : IPAddress) : Bool := matchesPrefix a r.addr r.mask

def containsRoute (r e : IPRoute) : Bool :=
  matchesPrefix e.addr r.addr r.mask && maskAsSpecific e.mask r.mask

/-- The request `r` of `remove_route` names the entry `e`. -/
def matching (r e : IPRoute) : Bool :=
  r.addr == e.addr && r.mask == e.mask && (decide (r.port < 0) || (r.gw == e.gw && r.port == e.port))

def samePrefix (r e : IPRoute) : Bool := e.addr == r.addr && e.mask == r.mask

/-- The test by which `add_route` and `check` find the route of a prefix. -/
def holds (r e : IPRoute) : Bool := e.real && samePrefix r e

end IPRoute

/-- `_zero_route` is the index of the route for 0.0.0.0/32, with `none` for -1. -/
structure LinearIPLookup where
  t : List IPRoute
  zeroRoute : Option ℕ
  lastAddr : IPAddress
  lastEntry : ℕ
  lastAddr2 : IPAddress
  lastEntry2 : ℕ
  deriving DecidableEq, Repr

/-- What the first loop of `add_route` ends with: a route for the same prefix, or the slot
for a new one. -/
inductive Slot where
  | taken (i : ℕ) (old : IPRoute)
  | free (found : ℕ)
  deriving DecidableEq, Repr

inductive RouteError where
  -- the texts of `run_command`, with the route that each one prints
  | expected
  | badOutput
  | conflict (old : IPRoute)
  | notFound (route : IPRoute)
  -- the text of `ctrl_handler`
  | badCommand
  deriving DecidableEq, Repr

namespace LinearIPLookup

def empty : LinearIPLookup := ⟨[], none, 0, 0, 0, 0⟩

def routeAt (t : List IPRoute) (i : ℕ) : IPRoute := t.getD i default

def lookupEntry (t : List IPRoute) (a : IPAddress) : Option ℕ :=
  match firstMatch (fun r => r.contains a) t with
  | none => none
  | some (i, r) =>
    some (Climb.climb (fun j => (routeAt t j).contains a)
      (fun found j => maskAsSpecific (routeAt t j).mask (routeAt t found).mask)
      (List.range' r.extra (t.length-r.extra)) i)

/-- The first loop of `add_route`; `found` is the size while no free slot has been met. -/
def findSlot (r : IPRoute) (size : ℕ) : List IPRoute → ℕ → ℕ → Slot
  | [], _, found => .free found
  | e :: t, i, found =>
    if !e.real then findSlot r size t (i+1) (if found = size then i else found)
    else if r.samePrefix e then .taken i e
    else findSlot r size t (i+1) found

/-- The last loop of `add_route`: the first later route that the new one contains. -/
def nextPointer (t : List IPRoute) (found : ℕ) (r : IPRoute) : ℕ :=
  match firstMatch (fun e => r.containsRoute e && e.real) (t.drop (found+1)) with
  | some (k, _) => found+1+k
  | none => 0x7FFFFFFF

def repoint (found : ℕ) (r e : IPRoute) : IPRoute :=
  if e.containsRoute r && decide (found < e.extra) then { e with extra := found } else e

/-- The new route in its slot, with the next pointers patched up. -/
def place (t : List IPRoute) (found : ℕ) (r : IPRoute) : List IPRoute :=
  (t.take found).map (repoint found r) ++
    { r with extra := nextPointer t found r } :: t.drop (found+1)

def dropCaches (s : LinearIPLookup) : LinearIPLookup := { s with lastAddr := 0, lastAddr2 := 0 }

/-- Besides the code, the entry that `replaced` points to afterwards. -/
def addRoute (s : LinearIPLookup) (r : IPRoute) (allowReplace : Bool) :
    LinearIPLookup × Except RouteError (Option IPRoute) :=
  match findSlot r s.t.length s.t 0 s.t.length with
  | .taken i old =>
    if !allowReplace then (s, .error (.conflict old))
    else ({ s with t := s.t.set i { old with gw := r.gw, port := r.port } }, .ok (some old))
  | .free found =>
    let zeroRoute := if r.addr = 0 ∧ r.mask = 0xFFFFFFFF then some found else s.zeroRoute
    (dropCaches { s with t := place s.t found r, zeroRoute := zeroRoute }, .ok none)

/-- The zero route moves up into the slot that `remove_route` has freed before it, since a
killed entry would answer for the address zero too. -/
def moveZeroRoute (s : LinearIPLookup) (i : ℕ) : LinearIPLookup :=
  match s.zeroRoute with
  | none => s
  | some z =>
    if i = z then { s with zeroRoute := none }
    else if i < z then
      let zero := routeAt s.t z
      (addRoute { s with t := s.t.set z zero.kill } zero false).1
    else s

def removeRoute (s : LinearIPLookup) (route : IPRoute) :
    LinearIPLookup × Except RouteError IPRoute :=
  match firstMatch (fun e => route.matching e) s.t with
  | none => (s, .error (.notFound route))
  | some (i, old) => (dropCaches (moveZeroRoute { s with t := s.t.set i old.kill } i), .ok old)

/-- The output and the packet that goes there. -/
def send (p : Packet) (e : IPRoute) : ℤ × Packet :=
  (e.port, if e.gw ≠ 0 then { p with dstIpAnno := e.gw } else p)

/-- `push` with both caches. A packet without a route is killed. -/
def push (s : LinearIPLookup) (p : Packet) : LinearIPLookup × Option (ℤ × Packet) :=
  let a := p.dstIpAnno
  if a ≠ 0 ∧ a = s.lastAddr then (s, some (send p (routeAt s.t s.lastEntry)))
  else if a ≠ 0 ∧ a = s.lastAddr2 then (s, some (send p (routeAt s.t s.lastEntry2)))
  else
    match lookupEntry s.t a with
    | some ei =>
      ({ s with lastAddr2 := s.lastAddr, lastEntry2 := s.lastEntry, lastAddr := a, lastEntry := ei },
        some (send p (routeAt s.t ei)))
    | none => (s, none)

/-- The table's own consistency check: next pointers, duplicates and caches. -/
def check (s : LinearIPLookup) : Bool :=
  let n := s.t.length
  (List.range n).all (fun i => !(routeAt s.t i).real ||
    (List.range n).all (fun j => !(decide (i < j) && decide (j < (routeAt s.t i).extra) &&
      (routeAt s.t i).containsRoute (routeAt s.t j) && (routeAt s.t j).real))) &&
  (List.range n).all (fun i => (List.range n).all (fun j =>
    !(decide (i < j) && (routeAt s.t i).real && (routeAt s.t i).holds (routeAt s.t j)))) &&
  (s.lastAddr == 0 || lookupEntry s.t s.lastAddr == some s.lastEntry) &&
  (s.lastAddr2 == 0 || lookupEntry s.t s.lastAddr2 == some s.lastEntry2)

end LinearIPLookup

theorem matchesPrefix_iff (a addr mask : IPAddress) :
    matchesPrefix a addr mask = true ↔ a &&& mask = addr &&& mask := by
  have hdistrib : (a ^^^ addr) &&& mask = (a &&& mask) ^^^ (addr &&& mask) := by
    apply UInt32.toBitVec_inj.mp
    apply BitVec.eq_of_getLsbD_eq
    intro i hi
    simp only [UInt32.toBitVec_and, UInt32.toBitVec_xor, BitVec.getLsbD_and, BitVec.getLsbD_xor]
    exact Bool.and_xor_distrib_right _ _ _
  unfold matchesPrefix
  rw [beq_iff_eq, hdistrib, UInt32.xor_eq_zero_iff]

theorem maskAsSpecific_iff (m mask : IPAddress) :
    maskAsSpecific m mask = true ↔ m &&& mask = mask := by
  unfold maskAsSpecific
  rw [beq_iff_eq]

theorem maskAsSpecific_refl (m : IPAddress) : maskAsSpecific m m = true :=
  (maskAsSpecific_iff m m).mpr UInt32.and_self

theorem maskAsSpecific_trans (m n o : IPAddress) (hm : maskAsSpecific m n = true)
    (hn : maskAsSpecific n o = true) : maskAsSpecific m o = true := by
  rw [maskAsSpecific_iff] at hm hn ⊢
  calc m &&& o = m &&& (n &&& o) := by rw [hn]
    _ = (m &&& n) &&& o := (UInt32.and_assoc m n o).symm
    _ = o := by rw [hm, hn]

theorem maskAsSpecific_antisymm (m n : IPAddress) (hm : maskAsSpecific m n = true)
    (hn : maskAsSpecific n m = true) : m = n := by
  rw [maskAsSpecific_iff] at hm hn
  rw [← hm, UInt32.and_comm]
  exact hn.symm

namespace IPRoute

/-- Of two routes for an address, one with the more specific mask lies in the other. -/
theorem containsRoute_of_contains (r e : IPRoute) (a : IPAddress) (hr : r.contains a = true)
    (he : e.contains a = true) (hm : maskAsSpecific e.mask r.mask = true) :
    r.containsRoute e = true := by
  unfold containsRoute
  rw [Bool.and_eq_true_iff]
  refine ⟨(matchesPrefix_iff _ _ _).mpr ?_, hm⟩
  have hr' := (matchesPrefix_iff a r.addr r.mask).mp hr
  have he' := (matchesPrefix_iff a e.addr e.mask).mp he
  have hm' := (maskAsSpecific_iff e.mask r.mask).mp hm
  calc e.addr &&& r.mask = (e.addr &&& e.mask) &&& r.mask := by rw [UInt32.and_assoc, hm']
    _ = (a &&& e.mask) &&& r.mask := by rw [he']
    _ = a &&& r.mask := by rw [UInt32.and_assoc, hm']
    _ = r.addr &&& r.mask := hr'

@[simp] theorem real_kill (r : IPRoute) : r.kill.real = false := rfl

/-- A killed entry still answers for the address zero, and for no other. -/
theorem contains_zero_of_killed (e : IPRoute) (a : IPAddress) (h : e.addr = 0 ∧ e.mask = 0xFFFFFFFF)
    (hc : e.contains a = true) : a = 0 := by
  have hmatch := (matchesPrefix_iff a e.addr e.mask).mp hc
  rw [h.1, h.2] at hmatch
  have hones : ∀ x : IPAddress, x &&& 0xFFFFFFFF = x := fun x => UInt32.and_neg_one
  rwa [hones, hones] at hmatch

end IPRoute

namespace LinearIPLookup

theorem routeAt_of_getElem? (t : List IPRoute) (i : ℕ) (e : IPRoute) (h : t[i]? = some e) :
    routeAt t i = e := by
  unfold routeAt
  rw [List.getD_eq_getElem?_getD, h, Option.getD_some]

/-- What the first loop knows after the entries `pre`. -/
structure SlotInv (r : IPRoute) (size : ℕ) (pre : List IPRoute) (found : ℕ) : Prop where
  absent : ∀ e ∈ pre, r.holds e = false
  full : ∀ i e, i < found → pre[i]? = some e → e.real = true
  slot : found = size ∨ ∃ e, pre[found]? = some e ∧ e.real = false

/-- What the table looks like around the slot for a new route. -/
structure FreeSlot (r : IPRoute) (t : List IPRoute) (found : ℕ) : Prop where
  absent : ∀ e ∈ t, r.holds e = false
  le : found ≤ t.length
  full : ∀ i e, i < found → t[i]? = some e → e.real = true
  slot : ∀ e, t[found]? = some e → e.real = false

theorem findSlot_spec (r : IPRoute) (size : ℕ) (pre rest : List IPRoute) (found : ℕ)
    (hs : (pre ++ rest).length = size) (h : SlotInv r size pre found) :
    match findSlot r size rest pre.length found with
    | .taken i old => (pre ++ rest)[i]? = some old ∧ r.holds old = true
    | .free slot => FreeSlot r (pre ++ rest) slot := by
  -- by induction on the entries that are left; `pre` collects those that have been passed
  induction rest generalizing pre found with
  | nil =>
    rw [List.append_nil] at hs ⊢
    rcases h.slot with hfound | ⟨e, he, hreal⟩
    · refine ⟨h.absent, by omega, h.full, ?_⟩
      intro e he
      have hlt := (List.getElem?_eq_some_iff.mp he).1
      omega
    · refine ⟨h.absent, Nat.le_of_lt (List.getElem?_eq_some_iff.mp he).1, h.full, ?_⟩
      intro x hx
      rw [Option.some.inj (hx.symm.trans he)]
      exact hreal
  | cons e rest ih =>
    have hlen : (pre ++ [e]).length = pre.length+1 := by simp
    have hsize : ((pre ++ [e]) ++ rest).length = size := by simpa using hs
    have hlt : pre.length < size := by
      rw [← hs, List.length_append, List.length_cons]
      omega
    -- an entry that does not hold the prefix can be passed
    have hpass (found' : ℕ) (hholds : r.holds e = false)
        (hfull : ∀ i x, i < found' → (pre ++ [e])[i]? = some x → x.real = true)
        (hslot : found' = size ∨ ∃ x, (pre ++ [e])[found']? = some x ∧ x.real = false) :
        match findSlot r size rest (pre.length+1) found' with
        | .taken i old => (pre ++ e :: rest)[i]? = some old ∧ r.holds old = true
        | .free slot => FreeSlot r (pre ++ e :: rest) slot := by
      have hnext := ih (pre ++ [e]) found' hsize ⟨?_, hfull, hslot⟩
      · rw [hlen, ← List.append_cons] at hnext
        exact hnext
      · intro x hx
        rcases List.mem_append.mp hx with hx | hx
        · exact h.absent x hx
        · rw [List.mem_singleton.mp hx]
          exact hholds
    have hnew : ∀ i x, (pre ++ [e])[i]? = some x → pre[i]? = some x ∨ i = pre.length ∧ x = e := by
      intro i x hx
      rw [List.getElem?_append] at hx
      split_ifs at hx with hi
      · exact Or.inl hx
      · have hi0 := (List.getElem?_eq_some_iff.mp hx).1
        rw [List.length_singleton] at hi0
        rw [show i-pre.length = 0 by omega] at hx
        exact Or.inr ⟨by omega, (Option.some.inj hx).symm⟩
    have hkeep : ∀ f : ℕ, (∃ x, pre[f]? = some x ∧ x.real = false) →
        ∃ x, (pre ++ [e])[f]? = some x ∧ x.real = false := by
      rintro f ⟨x, hx, hreal⟩
      refine ⟨x, ?_, hreal⟩
      rw [List.getElem?_append_left (List.getElem?_eq_some_iff.mp hx).1]
      exact hx
    rw [findSlot]
    cases hreal : e.real with
    | false =>
      have hholds : r.holds e = false := by
        unfold IPRoute.holds
        rw [hreal, Bool.false_and]
      rw [if_pos (show (!false) = true from rfl)]
      split_ifs with hfirst
      · -- the first free slot
        apply hpass pre.length hholds
        · intro i x hi hx
          rcases hnew i x hx with hx | ⟨hx, -⟩
          · exact h.full i x (by omega) hx
          · omega
        · exact Or.inr ⟨e, by simp, hreal⟩
      · rcases h.slot with hfound | hslot
        · exact absurd hfound hfirst
        · apply hpass found hholds
          · intro i x hi hx
            obtain ⟨y, hy, -⟩ := hslot
            have hb := (List.getElem?_eq_some_iff.mp hy).1
            rcases hnew i x hx with hx | ⟨hx, -⟩
            · exact h.full i x hi hx
            · omega
          · exact Or.inr (hkeep found hslot)
    | true =>
      rw [if_neg (show ¬ (!true) = true from Bool.false_ne_true)]
      split_ifs with hsame
      · refine ⟨by simp, ?_⟩
        unfold IPRoute.holds
        rw [hreal, hsame]
        rfl
      · have hholds : r.holds e = false := by
          unfold IPRoute.holds
          rw [hreal, Bool.true_and]
          exact Bool.not_eq_true _ ▸ hsame
        apply hpass found hholds
        · intro i x hi hx
          rcases hnew i x hx with hx | ⟨-, hx⟩
          · exact h.full i x hi hx
          · rw [hx]
            exact hreal
        · exact h.slot.imp_right (hkeep found)

theorem findSlot_table (r : IPRoute) (t : List IPRoute) :
    match findSlot r t.length t 0 t.length with
    | .taken i old => t[i]? = some old ∧ r.holds old = true
    | .free slot => FreeSlot r t slot :=
  findSlot_spec r t.length [] t t.length rfl ⟨by simp, by simp, Or.inl rfl⟩

end LinearIPLookup

end MobileIP
