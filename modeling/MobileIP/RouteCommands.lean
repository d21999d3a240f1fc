import MobileIP.Routing

/-! The handlers that change the routing table, and what each one does to the map that the
table stands for. -/
namespace MobileIP

open VectorSearch

namespace LinearIPLookup

inductive Command where
  | add
  | set
  | remove
  deriving DecidableEq, Repr

/-- The words of a route that `cp_ip_route` has read; a missing output is -1. -/
structure RouteWords where
  addr : IPAddress
  mask : IPAddress
  gw : IPAddress
  port : ℤ
  deriving DecidableEq, Repr

def cpIpRoute (w : RouteWords) : IPRoute := ⟨w.addr &&& w.mask, w.mask, w.gw, w.port, 0⟩

/-- An element of `old_routes`; the source keeps the command in the field `extra`. -/
structure Saved where
  route : IPRoute
  command : Command
  deriving DecidableEq, Repr

def save (c : Command) (route : IPRoute) (old : Option IPRoute) : Saved :=
  let oldRoute := old.getD default
  if oldRoute.port < 0 then ⟨route, .add⟩ else ⟨oldRoute, c⟩

/-- `run_command` on words that did not parse (`none`) or on a route. A failure of `add_route`
or `remove_route` leaves the table alone. -/
def runCommand (noutputs : ℕ) (s : LinearIPLookup) (c : Command) (w : Option RouteWords) :
    Except RouteError (LinearIPLookup × Saved) :=
  match w with
  | none => .error .expected
  | some w =>
    let route := cpIpRoute w
    if route.port < (if c = .remove then -1 else 0) ∨ noutputs ≤ route.port then .error .badOutput
    else
      match c with
      | .remove =>
        match removeRoute s route with
        | (_, .error e) => .error e
        | (s', .ok old) => .ok (s', save c route (some old))
      | c =>
        match addRoute s route (c = .set) with
        | (_, .error e) => .error e
        | (s', .ok old) => .ok (s', save c route old)

/-- One turn of the loop behind `rollback`. -/
def undo (s : LinearIPLookup) (rt : Saved) : LinearIPLookup :=
  match rt.command with
  | .remove => (addRoute s rt.route false).1
  | .add => (removeRoute s rt.route).1
  | .set => (addRoute s rt.route true).1

/-- A line that `ctrl_handler` has read. -/
inductive Line where
  | blank
  | bad
  | command (c : Command) (w : Option RouteWords)
  deriving DecidableEq, Repr

/-- `ctrl_handler`. On a blank line the loop continues without moving on, so it never
returns: that is the result `none`. -/
def ctrlLoop (noutputs : ℕ) : LinearIPLookup → List Line → List Saved →
    Option (LinearIPLookup × Option RouteError)
  | s, [], _ => some (s, none)
  | _, .blank :: _, _ => none
  | s, .bad :: _, oldRoutes => some (UndoLog.rollback undo s oldRoutes, some .badCommand)
  | s, .command c w :: lines, oldRoutes =>
    match runCommand noutputs s c w with
    | .error e => some (UndoLog.rollback undo s oldRoutes, some e)
    | .ok (s', rt) => ctrlLoop noutputs s' lines (rt :: oldRoutes)

def ctrlHandler (noutputs : ℕ) (s : LinearIPLookup) (lines : List Line) :
    Option (LinearIPLookup × Option RouteError) := ctrlLoop noutputs s lines []

/-- The prefix of which a killed entry takes the form. -/
def zeroPrefix : Prefix := (0, 0xFFFFFFFF)

structure Inv (noutputs : ℕ) (s : LinearIPLookup) : Prop where
  table : TableInv noutputs s.t
  zero : ∀ z, s.zeroRoute = some z →
    ∃ e, s.t[z]? = some e ∧ e.real = true ∧ (e.addr, e.mask) = zeroPrefix
  noZero : s.zeroRoute = none → ∀ e ∈ s.t, e.real = true → (e.addr, e.mask) ≠ zeroPrefix
  full : ∀ z, s.zeroRoute = some z → ∀ (i : ℕ) (e : IPRoute), i < z → s.t[i]? = some e → e.real = true
  cache : s.lastAddr ≠ 0 → lookupEntry s.t s.lastAddr = some s.lastEntry
  cache2 : s.lastAddr2 ≠ 0 → lookupEntry s.t s.lastAddr2 = some s.lastEntry2

theorem inv_empty (noutputs : ℕ) : Inv noutputs empty where
  table := tableInv_nil noutputs
  zero := by simp [empty]
  noZero := by simp [empty]
  full := by simp [empty]
  cache h := absurd rfl h
  cache2 h := absurd rfl h

variable {noutputs : ℕ} {s : LinearIPLookup}

/-- The invariant after a change of the table that drops the caches. -/
theorem inv_dropCaches (t : List IPRoute) (zeroRoute : Option ℕ) (table : TableInv noutputs t)
    (zero : ∀ z, zeroRoute = some z → ∃ e, t[z]? = some e ∧ e.real = true ∧ (e.addr, e.mask) = zeroPrefix)
    (noZero : zeroRoute = none → ∀ e ∈ t, e.real = true → (e.addr, e.mask) ≠ zeroPrefix)
    (full : ∀ z, zeroRoute = some z → ∀ (i : ℕ) (e : IPRoute), i < z → t[i]? = some e → e.real = true) :
    Inv noutputs (dropCaches { s with t := t, zeroRoute := zeroRoute }) where
  table := table
  zero := zero
  noZero := noZero
  full := full
  cache h := absurd rfl h
  cache2 h := absurd rfl h

/-- A lookup reads prefixes and pointers only. -/
theorem lookupEntry_map (t : List IPRoute) (a : IPAddress) :
    lookupEntry (t.map (fun e => { e with gw := 0, port := -1 })) a = lookupEntry t a := by
  have hat : ∀ j, routeAt (t.map (fun e => { e with gw := 0, port := -1 })) j =
      { routeAt t j with gw := 0, port := -1 } := by
    intro j
    unfold routeAt
    rw [List.getD_eq_getElem?_getD, List.getD_eq_getElem?_getD, List.getElem?_map]
    cases t[j]? with
    | none => rfl
    | some e => rfl
  unfold lookupEntry
  rw [firstMatch_map]
  have hp : (fun e : IPRoute => IPRoute.contains { e with gw := 0, port := -1 } a) =
      (fun e => e.contains a) := rfl
  rw [hp]
  cases firstMatch (fun e => e.contains a) t with
  | none => rfl
  | some found =>
    simp only [Option.map_some, hat, List.length_map]
    rfl

theorem lookupEntry_set_nextHop (t : List IPRoute) (i : ℕ) (old r : IPRoute) (hi : t[i]? = some old)
    (a : IPAddress) :
    lookupEntry (t.set i { old with gw := r.gw, port := r.port }) a = lookupEntry t a := by
  have hlt := (List.getElem?_eq_some_iff.mp hi).1
  rw [← lookupEntry_map, ← lookupEntry_map t, List.map_set]
  congr 1
  apply List.ext_getElem?
  intro j
  by_cases hj : i = j
  · subst hj
    rw [List.getElem?_set_self (by rwa [List.length_map]), List.getElem?_map, hi]
    rfl
  · rw [List.getElem?_set_ne hj]

/-- The two ways in which `add_route` changes the table, and the way in which it does not. -/
theorem addRoute_cases (s : LinearIPLookup) (r : IPRoute) (allowReplace : Bool) :
    (∃ (i : ℕ) (old : IPRoute), s.t[i]? = some old ∧ r.holds old = true ∧ allowReplace = false ∧
      addRoute s r allowReplace = (s, .error (.conflict old))) ∨
    (∃ (i : ℕ) (old : IPRoute), s.t[i]? = some old ∧ r.holds old = true ∧ allowReplace = true ∧
      addRoute s r allowReplace =
        ({ s with t := s.t.set i { old with gw := r.gw, port := r.port } }, .ok (some old))) ∨
    ∃ found, FreeSlot r s.t found ∧ addRoute s r allowReplace =
      (dropCaches { s with
        t := place s.t found r
        zeroRoute := if r.addr = 0 ∧ r.mask = 0xFFFFFFFF then some found else s.zeroRoute }, .ok none) := by
  have hspec := findSlot_table r s.t
  unfold addRoute
  cases hf : findSlot r s.t.length s.t 0 s.t.length with
  | taken i old =>
    rw [hf] at hspec
    cases allowReplace with
    | false => exact Or.inl ⟨i, old, hspec.1, hspec.2, rfl, rfl⟩
    | true => exact Or.inr (Or.inl ⟨i, old, hspec.1, hspec.2, rfl, rfl⟩)
  | free found =>
    rw [hf] at hspec
    exact Or.inr (Or.inr ⟨found, hspec, rfl⟩)

theorem TableInv.live_of_holds {t : List IPRoute} (h : TableInv noutputs t) {r old : IPRoute} {i : ℕ}
    (hi : t[i]? = some old) (hr : r.holds old = true) :
    live t (r.addr, r.mask) = some (old.gw, old.port) := by
  have hp := eq_of_holds hr
  exact (h.live_eq_some_iff _ _).mpr ⟨i, old, hi, hp.1, hp.2, rfl⟩

theorem TableInv.live_of_absent {t : List IPRoute} (h : TableInv noutputs t) {r : IPRoute}
    (hr : ∀ e ∈ t, r.holds e = false) : live t (r.addr, r.mask) = none := by
  apply Option.eq_none_iff_forall_ne_some.mpr
  intro v hv
  obtain ⟨i, e, hi, hreal, hp, -⟩ := (h.live_eq_some_iff _ _).mp hv
  exact ne_of_not_holds (hr e (List.mem_of_getElem? hi)) hreal hp

theorem TableInv.valid {t : List IPRoute} (h : TableInv noutputs t) {e : IPRoute} {i : ℕ}
    (hi : t[i]? = some e) (he : e.real = true) : Valid noutputs e :=
  ⟨h.normal e (List.mem_of_getElem? hi), h.port e (List.mem_of_getElem? hi) he⟩

theorem Inv.replace (h : Inv noutputs s) {r old : IPRoute} {i : ℕ} (hi : s.t[i]? = some old)
    (hr : r.holds old = true) (hv : Valid noutputs r) :
    Inv noutputs { s with t := s.t.set i { old with gw := r.gw, port := r.port } } := by
  have ho := (eq_of_holds hr).1
  have hnew : ({ old with gw := r.gw, port := r.port } : IPRoute).real = true := hv.real
  have hlt := (List.getElem?_eq_some_iff.mp hi).1
  refine ⟨h.table.replace i old r hi ho hv, ?_, ?_, ?_, ?_, ?_⟩
  · intro z hz
    obtain ⟨e, he, hreal, hp⟩ := h.zero z hz
    by_cases hzi : z = i
    · subst hzi
      refine ⟨_, List.getElem?_set_self hlt, hnew, ?_⟩
      rw [← hp, Option.some.inj (he.symm.trans hi)]
    · exact ⟨e, by rwa [getElem?_set_ne _ hzi], hreal, hp⟩
  · intro hz e he hreal
    rcases List.mem_or_eq_of_mem_set he with he | rfl
    · exact h.noZero hz e he hreal
    · exact h.noZero hz old (List.mem_of_getElem? hi) ho
  · intro z hz j e hj he
    rcases set_cases s.t i _ j e he with ⟨-, rfl⟩ | ⟨-, he⟩
    · exact hnew
    · exact h.full z hz j e hj he
  · intro ha
    rw [← h.cache ha]
    exact lookupEntry_set_nextHop s.t i old r hi s.lastAddr
  · intro ha
    rw [← h.cache2 ha]
    exact lookupEntry_set_nextHop s.t i old r hi s.lastAddr2

/-- The entry that is real before the slot of a new route is still there afterwards. -/
theorem place_kept {t : List IPRoute} {r : IPRoute} {found : ℕ} (hs : FreeSlot r t found) {i : ℕ}
    {e : IPRoute} (hi : t[i]? = some e) (he : e.real = true) :
    i ≠ found ∧ ∃ n, (place t found r)[i]? = some { e with extra := n } := by
  have hne : i ≠ found := by
    rintro rfl
    rw [hs.slot e hi] at he
    cases he
  refine ⟨hne, ?_⟩
  rw [getElem?_place t found r hs.le]
  split_ifs with hlt
  · exact ⟨(repoint found r e).extra, by rw [hi, Option.map_some, ← repoint_eq]⟩
  · exact ⟨e.extra, hi⟩

theorem place_zero {t : List IPRoute} {r : IPRoute} {found : ℕ} (hs : FreeSlot r t found)
    (hv : Valid noutputs r) (hz : r.addr = 0 ∧ r.mask = 0xFFFFFFFF) :
    (∃ e, (place t found r)[found]? = some e ∧ e.real = true ∧ (e.addr, e.mask) = zeroPrefix) ∧
      ∀ (i : ℕ) (e : IPRoute), i < found → (place t found r)[i]? = some e → e.real = true := by
  constructor
  · refine ⟨{ r with extra := nextPointer t found r }, ?_, hv.real, ?_⟩
    · rw [getElem?_place t found r hs.le, if_neg (Nat.lt_irrefl found), if_pos rfl]
    · exact Prod.ext hz.1 hz.2
  · intro i e hi he
    obtain ⟨x, n, rfl, ⟨hf, -⟩ | ⟨-, hx⟩⟩ := place_origin t found r hs.le i e he
    · omega
    · exact hs.full i x hi hx

theorem Inv.place (h : Inv noutputs s) {r : IPRoute} {found : ℕ} (hs : FreeSlot r s.t found)
    (hv : Valid noutputs r) :
    Inv noutputs (dropCaches { s with
      t := LinearIPLookup.place s.t found r
      zeroRoute := if r.addr = 0 ∧ r.mask = 0xFFFFFFFF then some found else s.zeroRoute }) := by
  apply inv_dropCaches _ _ (h.table.place hs hv)
  · intro z hz
    split_ifs at hz with hzero
    · rw [← Option.some.inj hz]
      exact (place_zero hs hv hzero).1
    · obtain ⟨e, he, hreal, hp⟩ := h.zero z hz
      obtain ⟨-, n, hn⟩ := place_kept hs he hreal
      exact ⟨_, hn, hreal, hp⟩
  · intro hz e he hreal
    split_ifs at hz with hzero
    obtain ⟨i, hi⟩ := List.mem_iff_getElem?.mp he
    obtain ⟨x, n, rfl, ⟨-, rfl⟩ | ⟨-, hx⟩⟩ := place_origin s.t found r hs.le i e hi
    · intro hp
      exact hzero (Prod.mk.inj hp)
    · exact h.noZero hz x (List.mem_of_getElem? hx) hreal
  · intro z hz i e hi he
    split_ifs at hz with hzero
    · rw [← Option.some.inj hz] at hi
      exact (place_zero hs hv hzero).2 i e hi he
    · obtain ⟨x, n, rfl, ⟨hf, -⟩ | ⟨-, hx⟩⟩ := place_origin s.t found r hs.le i e he
      · -- the slot stands behind the zero route, before which there is none
        obtain ⟨y, hy, hyreal, -⟩ := h.zero z hz
        have hlt : found < s.t.length := by
          have := (List.getElem?_eq_some_iff.mp hy).1
          omega
        have hdead := hs.slot _ (List.getElem?_eq_getElem hlt)
        rw [h.full z hz found _ (by omega) (List.getElem?_eq_getElem hlt)] at hdead
        cases hdead
      · exact h.full z hz i x hi hx

/-- What `add_route` does to the map: a new prefix is added, one that exists is replaced if
that is allowed. -/
theorem Inv.addRoute_spec (h : Inv noutputs s) {r : IPRoute} (hv : Valid noutputs r)
    (allowReplace : Bool) :
    (∃ old, addRoute s r allowReplace = (s, .error (.conflict old)) ∧ allowReplace = false ∧
      live s.t (r.addr, r.mask) = some (old.gw, old.port)) ∨
    ∃ s' old, addRoute s r allowReplace = (s', .ok old) ∧ Inv noutputs s' ∧
      live s'.t = Function.update (live s.t) (r.addr, r.mask) (some (r.gw, r.port)) ∧
      live s.t (r.addr, r.mask) = old.map (fun o => (o.gw, o.port)) ∧
      (∀ o, old = some o → allowReplace = true ∧ Valid noutputs o ∧ (o.addr, o.mask) = (r.addr, r.mask)) := by
  rcases addRoute_cases s r allowReplace with
    ⟨i, old, hi, hr, ha, heq⟩ | ⟨i, old, hi, hr, ha, heq⟩ | ⟨found, hs, heq⟩
  · exact Or.inl ⟨old, heq, ha, h.table.live_of_holds hi hr⟩
  · have hp := eq_of_holds hr
    refine Or.inr ⟨_, some old, heq, h.replace hi hr hv, ?_, h.table.live_of_holds hi hr, ?_⟩
    · rw [← hp.2]
      exact h.table.live_replace i old r hi hp.1 hv
    · intro o ho
      rw [← Option.some.inj ho]
      exact ⟨ha, h.table.valid hi hp.1, hp.2⟩
  · refine Or.inr ⟨_, none, heq, h.place hs hv, h.table.live_place hs hv, ?_, ?_⟩
    · exact h.table.live_of_absent hs.absent
    · intro o ho
      cases ho

theorem eq_of_matching {r e : IPRoute} (h : r.matching e = true) :
    (e.addr, e.mask) = (r.addr, r.mask) ∧ (r.port < 0 ∨ (r.gw, r.port) = (e.gw, e.port)) := by
  unfold IPRoute.matching at h
  simp only [Bool.and_eq_true, Bool.or_eq_true, beq_iff_eq, decide_eq_true_eq] at h
  exact ⟨Prod.ext h.1.1.symm h.1.2.symm, h.2.imp_right (fun hv => Prod.ext hv.1 hv.2)⟩

theorem not_matching {r e : IPRoute} (h : r.matching e = false) (hp : (e.addr, e.mask) = (r.addr, r.mask)) :
    ¬ (r.port < 0 ∨ (r.gw, r.port) = (e.gw, e.port)) := by
  have hsame := Prod.mk.inj hp
  intro hv
  have hyes : r.matching e = true := by
    unfold IPRoute.matching
    simp only [Bool.and_eq_true, Bool.or_eq_true, beq_iff_eq, decide_eq_true_eq]
    exact ⟨⟨hsame.1.symm, hsame.2.symm⟩, hv.imp_right Prod.mk.inj⟩
  rw [hyes] at h
  cases h

/-- Killing the entry of a prefix other than zero leaves the zero route where it is. -/
theorem Inv.kill_other (h : Inv noutputs s) (i : ℕ) (old : IPRoute)
    (hz : ∀ z, s.zeroRoute = some z → z < i) :
    Inv noutputs (dropCaches { s with t := s.t.set i old.kill }) := by
  apply inv_dropCaches _ _ (h.table.kill i old)
  · intro z hzero
    obtain ⟨e, he, hreal, hp⟩ := h.zero z hzero
    have hlt := hz z hzero
    exact ⟨e, by rwa [getElem?_set_ne _ (by omega)], hreal, hp⟩
  · intro hnone e he hreal
    rcases List.mem_or_eq_of_mem_set he with he | rfl
    · exact h.noZero hnone e he hreal
    · cases hreal
  · intro z hzero j e hj he
    have hlt := hz z hzero
    rw [getElem?_set_ne _ (by omega)] at he
    exact h.full z hzero j e hj he

theorem Inv.kill_zero (h : Inv noutputs s) (z : ℕ) (old : IPRoute) (hz : s.zeroRoute = some z) :
    Inv noutputs (dropCaches { s with t := s.t.set z old.kill, zeroRoute := none }) := by
  apply inv_dropCaches _ _ (h.table.kill z old)
  · intro z hzero
    cases hzero
  · intro _ e he hreal
    obtain ⟨x, hx, hxreal, hxp⟩ := h.zero z hz
    obtain ⟨j, hj⟩ := List.mem_iff_getElem?.mp he
    rcases set_cases s.t z old.kill j e hj with ⟨-, rfl⟩ | ⟨hne, hj⟩
    · cases hreal
    · rw [← hxp]
      exact h.table.others z x hx hxreal j e hne hj hreal
  · intro z hzero
    cases hzero

theorem moveZeroRoute_behind (s : LinearIPLookup) (i : ℕ) (h : ∀ z, s.zeroRoute = some z → z < i) :
    moveZeroRoute s i = s := by
  unfold moveZeroRoute
  split
  · rfl
  · next z hz =>
    have hlt := h z hz
    rw [if_neg (by omega), if_neg (by omega)]

theorem moveZeroRoute_self (s : LinearIPLookup) (i : ℕ) (h : s.zeroRoute = some i) :
    moveZeroRoute s i = { s with zeroRoute := none } := by
  unfold moveZeroRoute
  rw [h]
  exact if_pos rfl

/-- The zero route moves into the slot that was freed before it. -/
theorem Inv.kill_before_zero (h : Inv noutputs s) (i z : ℕ) (old : IPRoute)
    (hz : s.zeroRoute = some z) (hiz : i < z) (hi : s.t[i]? = some old) :
    let s' := moveZeroRoute { s with t := s.t.set i old.kill } i
    Inv noutputs (dropCaches s') ∧
      live s'.t = Function.update (live s.t) (old.addr, old.mask) none := by
  have hreal := h.full z hz i old hiz hi
  obtain ⟨zero, hzt, hzreal, hzp⟩ := h.zero z hz
  have hzi : (s.t.set i old.kill)[z]? = some zero := by rwa [getElem?_set_ne _ (by omega)]
  have hkilled := h.table.kill i old
  have htwice := hkilled.kill z zero
  have hvalid := h.table.valid hzt hzreal
  have hzz : zero.addr = 0 ∧ zero.mask = 0xFFFFFFFF := Prod.mk.inj hzp
  -- with both entries killed nothing holds the zero prefix any more
  have habsent : ∀ e ∈ (s.t.set i old.kill).set z zero.kill, zero.holds e = false := by
    intro e he
    by_contra hholds
    obtain ⟨hereal, hep⟩ := eq_of_holds (Bool.not_eq_false _ ▸ hholds)
    obtain ⟨j, hj⟩ := List.mem_iff_getElem?.mp he
    rcases set_cases _ z zero.kill j e hj with ⟨-, rfl⟩ | ⟨hne, hj⟩
    · cases hereal
    · exact hkilled.others z zero hzi hzreal j e hne hj hereal hep
  dsimp only
  unfold moveZeroRoute
  dsimp only
  rw [hz]
  dsimp only
  rw [if_neg (by omega), if_pos hiz, routeAt_of_getElem? _ z zero hzi]
  rcases addRoute_cases { s with t := (s.t.set i old.kill).set z zero.kill, zeroRoute := some z }
    zero false with ⟨j, e, hj, hh, -⟩ | ⟨j, e, hj, hh, -⟩ | ⟨found, hs, heq⟩
  · rw [habsent e (List.mem_of_getElem? hj)] at hh
    cases hh
  · rw [habsent e (List.mem_of_getElem? hj)] at hh
    cases hh
  · rw [heq, if_pos hzz]
    constructor
    · apply inv_dropCaches _ _ (htwice.place hs hvalid)
      · intro z' hz'
        rw [← Option.some.inj hz']
        exact (place_zero hs hvalid hzz).1
      · intro hnone
        cases hnone
      · intro z' hz'
        rw [← Option.some.inj hz']
        exact (place_zero hs hvalid hzz).2
    · have hne := h.table.others i old hi hreal z zero (by omega) hzt hzreal
      have hold : live s.t (zero.addr, zero.mask) = some (zero.gw, zero.port) :=
        (h.table.live_eq_some_iff _ _).mpr ⟨z, zero, hzt, hzreal, rfl, rfl⟩
      change live (LinearIPLookup.place _ found zero) = _
      rw [htwice.live_place hs hvalid, hkilled.live_kill z zero hzi hzreal,
        h.table.live_kill i old hi hreal, Function.update_idem, ← hold,
        Function.update_comm hne.symm, Function.update_eq_self]

/-- What `remove_route` does to the map: it takes the prefix out, or finds nothing. The one
entry that it can find without a route is a killed one, asked for as 0.0.0.0/32. -/
theorem Inv.removeRoute_spec (h : Inv noutputs s) (r : IPRoute) (hport : -1 ≤ r.port) :
    (removeRoute s r = (s, .error (.notFound r)) ∧
      ∀ v, live s.t (r.addr, r.mask) = some v → ¬ (r.port < 0 ∨ (r.gw, r.port) = v)) ∨
    ∃ s' old, removeRoute s r = (s', .ok old) ∧ Inv noutputs s' ∧
      live s'.t = Function.update (live s.t) (r.addr, r.mask) none ∧
      ((0 ≤ old.port ∧ Valid noutputs old ∧ (old.addr, old.mask) = (r.addr, r.mask) ∧
          live s.t (r.addr, r.mask) = some (old.gw, old.port) ∧
          (r.port < 0 ∨ (r.gw, r.port) = (old.gw, old.port))) ∨
        (old.port < 0 ∧ live s.t (r.addr, r.mask) = none ∧ r.port < 0 ∧
          (r.addr, r.mask) = zeroPrefix)) := by
  unfold removeRoute
  cases hm : firstMatch (fun e => r.matching e) s.t with
  | none =>
    refine Or.inl ⟨rfl, ?_⟩
    intro v hv
    obtain ⟨i, e, hi, -, hp, rfl⟩ := (h.table.live_eq_some_iff _ _).mp hv
    exact not_matching ((firstMatch_eq_none_iff _ _).mp hm e (List.mem_of_getElem? hi)) hp
  | some found =>
    obtain ⟨i, old⟩ := found
    obtain ⟨hi, hmatch⟩ := firstMatch_getElem? _ s.t i old hm
    obtain ⟨pre, post, ht, hlen, -, hpre⟩ := firstMatch_split _ s.t i old hm
    obtain ⟨hp, hwhich⟩ := eq_of_matching hmatch
    refine Or.inr ⟨_, old, rfl, ?_⟩
    cases hreal : old.real with
    | true =>
      have hvalid := h.table.valid hi hreal
      have hlive : live s.t (r.addr, r.mask) = some (old.gw, old.port) :=
        (h.table.live_eq_some_iff _ _).mpr ⟨i, old, hi, hreal, hp, rfl⟩
      have hkill := h.table.live_kill i old hi hreal
      rw [hp] at hkill
      suffices hboth : Inv noutputs (dropCaches (moveZeroRoute { s with t := s.t.set i old.kill } i)) ∧
          live (moveZeroRoute { s with t := s.t.set i old.kill } i).t =
            Function.update (live s.t) (r.addr, r.mask) none from
        ⟨hboth.1, hboth.2, Or.inl ⟨hvalid.port.1, hvalid, hp, hlive, hwhich⟩⟩
      -- where the zero route stands decides what else has to move
      by_cases hz : ∀ z, s.zeroRoute = some z → z < i
      · rw [moveZeroRoute_behind { s with t := s.t.set i old.kill } i hz]
        exact ⟨h.kill_other i old hz, hkill⟩
      · push Not at hz
        obtain ⟨z, hz, hle⟩ := hz
        rcases Nat.eq_or_lt_of_le hle with rfl | hlt
        · rw [moveZeroRoute_self { s with t := s.t.set i old.kill } i hz]
          exact ⟨h.kill_zero i old hz, hkill⟩
        · have hmove := h.kill_before_zero i z old hz hlt hi
          rw [hp] at hmove
          exact hmove
    | false =>
      -- a killed entry: then the request names 0.0.0.0/32 without an output, and there is no
      -- such route, since it would have been found first
      have hdead := h.table.dead old (List.mem_of_getElem? hi) hreal
      have hoport : old.port ≤ -0x80000000 := by
        unfold IPRoute.real at hreal
        simpa using hreal
      have hneg : r.port < 0 := by
        rcases hwhich with hneg | hv
        · exact hneg
        · have := (Prod.mk.inj hv).2
          omega
      have hrp : (r.addr, r.mask) = zeroPrefix := by
        rw [← hp]
        exact Prod.ext hdead.1 hdead.2
      have hnone : s.zeroRoute = none := by
        cases hz : s.zeroRoute with
        | none => rfl
        | some z =>
          obtain ⟨e, he, hereal, hep⟩ := h.zero z hz
          rcases Nat.lt_trichotomy i z with hlt | rfl | hgt
          · rw [h.full z hz i old hlt hi] at hreal
            cases hreal
          · rw [Option.some.inj (hi.symm.trans he), hereal] at hreal
            cases hreal
          · rw [ht, List.getElem?_append_left (by omega)] at he
            have hno := hpre e (List.mem_of_getElem? he)
            exact absurd (Or.inl hneg) (not_matching hno (hep.trans hrp.symm))
      have habsent : live s.t (r.addr, r.mask) = none := by
        apply Option.eq_none_iff_forall_ne_some.mpr
        intro v hv
        obtain ⟨j, e, hj, hjreal, hjp, -⟩ := (h.table.live_eq_some_iff _ _).mp hv
        exact h.noZero hnone e (List.mem_of_getElem? hj) hjreal (hjp.trans hrp)
      have hbehind : ∀ z, s.zeroRoute = some z → z < i := by simp [hnone]
      rw [moveZeroRoute_behind { s with t := s.t.set i old.kill } i hbehind]
      refine ⟨h.kill_other i old hbehind, ?_, Or.inr ⟨by omega, habsent, hneg, hrp⟩⟩
      rw [← habsent, Function.update_eq_self]
      -- a killed entry that is killed again says no more and no less
      funext q
      apply Option.ext
      intro v
      change live (s.t.set i old.kill) q = some v ↔ _
      rw [(h.table.kill i old).live_eq_some_iff, h.table.live_eq_some_iff]
      constructor
      · rintro ⟨j, e, hj, hjreal, hrest⟩
        rcases set_cases s.t i old.kill j e hj with ⟨-, rfl⟩ | ⟨-, hj⟩
        · cases hjreal
        · exact ⟨j, e, hj, hjreal, hrest⟩
      · rintro ⟨j, e, hj, hjreal, hrest⟩
        have hne : j ≠ i := by
          rintro rfl
          rw [Option.some.inj (hj.symm.trans hi), hreal] at hjreal
          cases hjreal
        exact ⟨j, e, by rwa [getElem?_set_ne _ hne], hjreal, hrest⟩

/-- What a command that succeeds does to the map. -/
def effect (m : Prefix → Option NextHop) (c : Command) (r : IPRoute) : Prefix → Option NextHop :=
  match c with
  | .remove => Function.update m (r.addr, r.mask) none
  | _ => Function.update m (r.addr, r.mask) (some (r.gw, r.port))

/-- A record that `rollback` can play back. -/
def Able (noutputs : ℕ) (rt : Saved) : Prop :=
  match rt.command with
  | .add => -1 ≤ rt.route.port
  | _ => Valid noutputs rt.route

theorem cpIpRoute_valid (w : RouteWords) (h0 : 0 ≤ w.port) (hn : w.port < noutputs) :
    Valid noutputs (cpIpRoute w) := by
  refine ⟨?_, h0, hn⟩
  change (w.addr &&& w.mask) &&& w.mask = w.addr &&& w.mask
  rw [UInt32.and_assoc, UInt32.and_self]

theorem save_neg (c : Command) (r old : IPRoute) (h : old.port < 0) : save c r (some old) = ⟨r, .add⟩ :=
  if_pos h

theorem save_some (c : Command) (r old : IPRoute) (h : 0 ≤ old.port) :
    save c r (some old) = ⟨old, c⟩ :=
  if_neg (Int.not_lt.mpr h)

/-- Undoing a record on any good table that stands for the same map as the one after the
command puts the map back. -/
def Puts (noutputs : ℕ) (rt : Saved) (after before : Prefix → Option NextHop) : Prop :=
  ∀ t, Inv noutputs t → live t.t = after → live (undo t rt).t = before

theorem undo_inv {t : LinearIPLookup} (h : Inv noutputs t) (rt : Saved) (hable : Able noutputs rt) :
    Inv noutputs (undo t rt) := by
  obtain ⟨r, c⟩ := rt
  have hadd (allowReplace : Bool) (hv : Valid noutputs r) : Inv noutputs (addRoute t r allowReplace).1 := by
    rcases h.addRoute_spec hv allowReplace with ⟨old, heq, -⟩ | ⟨s', old, heq, hinv, -⟩
    · rw [heq]
      exact h
    · rw [heq]
      exact hinv
  cases c with
  | add =>
    unfold undo
    rcases h.removeRoute_spec r hable with ⟨heq, -⟩ | ⟨s', old, heq, hinv, -⟩
    · rw [heq]
      exact h
    · rw [heq]
      exact hinv
  | set => exact hadd true hable
  | remove => exact hadd false hable

/-- An `add` is undone by removing the route, whether it is there or not. -/
theorem puts_add (r : IPRoute) (hport : -1 ≤ r.port) (m : Prefix → Option NextHop)
    (hm : m (r.addr, r.mask) = none) (v : Option NextHop)
    (hv : ∀ w, v = some w → r.port < 0 ∨ (r.gw, r.port) = w) :
    Puts noutputs ⟨r, .add⟩ (Function.update m (r.addr, r.mask) v) m := by
  intro t ht hlive
  have hback : Function.update (Function.update m (r.addr, r.mask) v) (r.addr, r.mask) none = m := by
    rw [Function.update_idem, ← hm, Function.update_eq_self]
  unfold undo
  rcases ht.removeRoute_spec r hport with ⟨heq, hno⟩ | ⟨s', old, heq, -, hs', -⟩
  · rw [heq, hlive]
    -- nothing was found, so the command had added nothing
    cases v with
    | none => rw [← hback, Function.update_idem]
    | some w =>
      rw [hlive, Function.update_self] at hno
      exact absurd (hv w rfl) (hno w rfl)
  · rw [heq, hs', hlive, hback]

theorem puts_back (r : IPRoute) (hr : Valid noutputs r) (m : Prefix → Option NextHop) (c : Command)
    (hm : m (r.addr, r.mask) = some (r.gw, r.port)) (v : Option NextHop)
    (hc : c = .set ∨ c = .remove ∧ v = none) :
    Puts noutputs ⟨r, c⟩ (Function.update m (r.addr, r.mask) v) m := by
  intro t ht hlive
  have hback : Function.update (live t.t) (r.addr, r.mask) (some (r.gw, r.port)) = m := by
    rw [hlive, Function.update_idem, ← hm, Function.update_eq_self]
  rcases hc with rfl | ⟨rfl, rfl⟩
  · unfold undo
    rcases ht.addRoute_spec hr true with ⟨old, -, hfalse, -⟩ | ⟨s', old, heq, -, hs', -⟩
    · cases hfalse
    · rw [heq, hs', hback]
  · unfold undo
    rcases ht.addRoute_spec hr false with ⟨old, -, -, hold⟩ | ⟨s', old, heq, -, hs', -⟩
    · rw [hlive, Function.update_self] at hold
      cases hold
    · rw [heq, hs', hback]

/-- What a command does when it succeeds: its effect on the map, and a record that undoes it. -/
theorem Inv.runCommand_spec (h : Inv noutputs s) (c : Command) (w : Option RouteWords)
    (s' : LinearIPLookup) (rt : Saved) (hok : runCommand noutputs s c w = .ok (s', rt)) :
    ∃ words, w = some words ∧ Inv noutputs s' ∧ Able noutputs rt ∧
      live s'.t = effect (live s.t) c (cpIpRoute words) ∧ Puts noutputs rt (live s'.t) (live s.t) := by
  cases w with
  | none => cases hok
  | some words =>
    refine ⟨words, rfl, ?_⟩
    unfold runCommand at hok
    dsimp only at hok
    by_cases hbad : (cpIpRoute words).port < (if c = .remove then -1 else 0) ∨
        noutputs ≤ (cpIpRoute words).port
    · rw [if_pos hbad] at hok
      cases hok
    rw [if_neg hbad] at hok
    obtain ⟨hport, hn⟩ := not_or.mp hbad
    have hport := Int.not_lt.mp hport
    have hn : words.port < noutputs := Int.not_le.mp hn
    have hadd (allowReplace : Bool) (c : Command) (hc : c = .set ∨ c = .add ∧ allowReplace = false)
        (hok : (match addRoute s (cpIpRoute words) allowReplace with
          | (_, .error e) => .error e
          | (s', .ok old) => .ok (s', save c (cpIpRoute words) old)) =
            (.ok (s', rt) : Except RouteError (LinearIPLookup × Saved))) (h0 : 0 ≤ words.port) :
        Inv noutputs s' ∧ Able noutputs rt ∧
          live s'.t = Function.update (live s.t) ((cpIpRoute words).addr, (cpIpRoute words).mask)
            (some ((cpIpRoute words).gw, (cpIpRoute words).port)) ∧
          Puts noutputs rt (live s'.t) (live s.t) := by
      have hvalid := cpIpRoute_valid words h0 hn
      rcases h.addRoute_spec hvalid allowReplace with ⟨old, heq, -⟩ | ⟨t, old, heq, hinv, hlive, hold, hval⟩
      · rw [heq] at hok
        cases hok
      · rw [heq] at hok
        obtain ⟨rfl, rfl⟩ := Prod.mk.inj (Except.ok.inj hok)
        refine ⟨hinv, ?_⟩
        rw [hlive]
        cases old with
        | none =>
          refine ⟨?_, rfl, puts_add _ ?_ _ hold _ ?_⟩
          · exact Int.le_trans (by decide) h0
          · exact Int.le_trans (by decide) h0
          · intro w hw
            exact Or.inr (Option.some.inj hw)
        | some o =>
          obtain ⟨hrep, hov, hop⟩ := hval o rfl
          have hcset : c = .set := by
            rcases hc with hc | ⟨-, hfalse⟩
            · exact hc
            · rw [hrep] at hfalse
              cases hfalse
          rw [save_some c _ o hov.port.1, hcset]
          refine ⟨hov, rfl, ?_⟩
          rw [← hop]
          exact puts_back o hov _ .set (hop ▸ hold) _ (Or.inl rfl)
    cases c with
    | add => exact hadd false .add (Or.inr ⟨rfl, rfl⟩) hok hport
    | set => exact hadd true .set (Or.inl rfl) hok hport
    | remove =>
      have hm1 : -1 ≤ (cpIpRoute words).port := hport
      dsimp only at hok
      rcases h.removeRoute_spec (cpIpRoute words) hm1 with
        ⟨heq, -⟩ | ⟨t, old, heq, hinv, hlive, ⟨hop, hov, hpre, hold, -⟩ | ⟨hneg, hold, -⟩⟩
      · rw [heq] at hok
        cases hok
      · rw [heq] at hok
        obtain ⟨rfl, rfl⟩ := Prod.mk.inj (Except.ok.inj hok)
        rw [save_some _ _ old hop, hlive]
        refine ⟨hinv, hov, rfl, ?_⟩
        rw [← hpre]
        exact puts_back old hov _ .remove (hpre ▸ hold) _ (Or.inr ⟨rfl, rfl⟩)
      · rw [heq] at hok
        obtain ⟨rfl, rfl⟩ := Prod.mk.inj (Except.ok.inj hok)
        rw [save_neg _ _ old hneg, hlive]
        refine ⟨hinv, hm1, rfl, puts_add _ hm1 _ hold _ ?_⟩
        intro w hw
        cases hw

end LinearIPLookup

end MobileIP
