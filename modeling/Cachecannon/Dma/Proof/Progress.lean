import Cachecannon.Dma.Progress
import Cachecannon.Lib.Fair
import Mathlib.Data.Fintype.Card

/-!
# The poller never sleeps through a transfer

The poller checks `active` and `shutdown` with `park` held and lets go of it only by waiting, so a
thread that changes one of the two behind its back has still to take `park` and notify: that is
`DriverInv.waking` and `DriverInv.stopping`. Past the notification of `drop` the poller therefore
neither waits nor is about to, and each of its steps but the reading of an entry brings it nearer
to its end (`rank_poller`).
-/

namespace Dma

variable {T : Type} [DecidableEq T] {s s' : Driver T} {e : DriverStep T}

/-! ## What a step can do -/

/-- A step `e` out of `s`: where it can happen, and the state after it. -/
inductive Moves (s : Driver T) : DriverStep T → Driver T → Prop
  | first {t} : s.drive t = .idle → s.active = 0 →
      Moves s (.fetchAdd t) { s.setDrive t .waking with active := s.active + 1 }
  | another {t} : s.drive t = .idle → 0 < s.active →
      Moves s (.fetchAdd t) { s.setDrive t .counted with active := s.active + 1 }
  | lockDrive {t} : s.drive t = .waking → s.park = none →
      Moves s (.lockDrive t) { s.setDrive t .parked with park := some (.drive t) }
  | notifyDrive {t} : s.drive t = .parked →
      Moves s (.notifyDrive t) { s.setDrive t .notified with poller := notifyOne s.poller }
  | unlockDrive {t} : s.drive t = .notified →
      Moves s (.unlockDrive t) { s.setDrive t .counted with park := none }
  | returnGuard {t} : s.drive t = .counted →
      Moves s (.returnGuard t) { s.setDrive t .idle with guards := s.guards + 1 }
  | fetchSub : 0 < s.guards →
      Moves s .fetchSub { s with guards := s.guards - 1, active := s.active - 1 }
  | storeShutdown : s.drop = .idle →
      Moves s .storeShutdown { s with drop := .stored, shutdown := true }
  | lockDrop : s.drop = .stored → s.park = none →
      Moves s .lockDrop { s with drop := .parked, park := some .drop }
  | notifyDrop : s.drop = .parked →
      Moves s .notifyDrop { s with drop := .notified, poller := notifyOne s.poller }
  | unlockDrop : s.drop = .notified →
      Moves s .unlockDrop { s with drop := .joining, park := none }
  | join : s.drop = .joining → s.poller = .returned → Moves s .join { s with drop := .dropped }
  | lockPoller : s.poller = .locking → s.park = none →
      Moves s .lockPoller { s with poller := .activeCheck, park := some .poller }
  | loadActive {pc} : s.poller = .activeCheck →
      (s.active = 0 ∧ pc = .shutdownCheck ∨ 0 < s.active ∧ pc = .leaving) →
      Moves s .loadActive { s with poller := pc }
  | loadShutdown {pc} : s.poller = .shutdownCheck →
      (s.shutdown = false ∧ pc = .parking ∨ s.shutdown = true ∧ pc = .leaving) →
      Moves s .loadShutdown { s with poller := pc }
  | wait : s.poller = .parking → Moves s .wait { s with poller := .waiting, park := none }
  | unlockPoller : s.poller = .leaving →
      Moves s .unlockPoller { s with poller := .stopCheck, park := none }
  | testShutdown {pc} : s.poller = .stopCheck →
      (s.shutdown = false ∧ pc = .draining ∨ s.shutdown = true ∧ pc = .returned) →
      Moves s .testShutdown { s with poller := pc }
  | readEntry : s.poller = .draining → Moves s (.readQueue true) { s with poller := .draining }
  | readEmpty : s.poller = .draining → Moves s (.readQueue false) { s with poller := .locking }
  | spurious : s.poller = .waiting → Moves s .spurious { s with poller := .locking }

theorem driverStep_moves (h : driverStep s e = some s') : Moves s e s' := by
  cases e with
  | fetchAdd t =>
    simp only [driverStep] at h
    split at h
    · rename_i hidle
      obtain rfl := Option.some.inj h
      by_cases hactive : s.active = 0
      · rw [if_pos hactive]
        exact .first hidle hactive
      · rw [if_neg hactive]
        exact .another hidle (Nat.pos_of_ne_zero hactive)
    · cases h
  | loadActive =>
    simp only [driverStep] at h
    split at h
    · rename_i hpc
      obtain rfl := Option.some.inj h
      refine .loadActive hpc ?_
      by_cases hactive : s.active = 0
      · exact .inl ⟨hactive, if_pos hactive⟩
      · exact .inr ⟨Nat.pos_of_ne_zero hactive, if_neg hactive⟩
    · cases h
  | loadShutdown =>
    simp only [driverStep] at h
    split at h
    · rename_i hpc
      obtain rfl := Option.some.inj h
      exact .loadShutdown hpc (by cases s.shutdown <;> simp)
    · cases h
  | testShutdown =>
    simp only [driverStep] at h
    split at h
    · rename_i hpc
      obtain rfl := Option.some.inj h
      exact .testShutdown hpc (by cases s.shutdown <;> simp)
    · cases h
  | readQueue entry =>
    simp only [driverStep] at h
    split at h
    · rename_i hpc
      obtain rfl := Option.some.inj h
      cases entry
      · exact .readEmpty hpc
      · exact .readEntry hpc
    · cases h
  | lockDrive t | lockDrop | join | lockPoller =>
    simp only [driverStep] at h
    split at h
    · rename_i hguard
      obtain rfl := Option.some.inj h
      constructor
      · exact hguard.1
      · exact hguard.2
    · cases h
  | notifyDrive t | unlockDrive t | returnGuard t | fetchSub | storeShutdown | notifyDrop
  | unlockDrop | wait | unlockPoller | spurious =>
    simp only [driverStep] at h
    split at h
    · rename_i hguard
      obtain rfl := Option.some.inj h
      constructor
      exact hguard
    · cases h

/-! ## The invariant -/

/-- With `park` held. -/
def DrivePc.holds (pc : DrivePc) : Bool := pc = .parked || pc = .notified

/-- With `park` still to take, or still to notify. -/
def DrivePc.wakes (pc : DrivePc) : Bool := pc = .waking || pc = .parked

def DropPc.holds (pc : DropPc) : Bool := pc = .parked || pc = .notified

def DropPc.wakes (pc : DropPc) : Bool := pc = .stored || pc = .parked

def PollerPc.holds (pc : PollerPc) : Bool :=
  pc = .activeCheck || pc = .shutdownCheck || pc = .parking || pc = .leaving

/-- Past a load of `active` that returned 0, and so on its way to the wait. -/
def PollerPc.idle (pc : PollerPc) : Bool := pc = .shutdownCheck || pc = .parking || pc = .waiting

/-- Past a load of `shutdown` as well. -/
def PollerPc.parks (pc : PollerPc) : Bool := pc = .parking || pc = .waiting

/-- Some thread has still to take `park` and notify. -/
def Driver.WakePending (s : Driver T) : Prop := (∃ t, (s.drive t).wakes) ∨ s.drop.wakes

theorem notifyOne_holds (pc : PollerPc) : (notifyOne pc).holds = pc.holds := by
  cases pc <;> rfl

/-- A poller without `park` does not wait once it is notified. -/
theorem notifyOne_idle {pc : PollerPc} (h : pc.holds = false) : (notifyOne pc).idle = false := by
  cases pc <;> simp_all [notifyOne, PollerPc.idle, PollerPc.holds]

theorem PollerPc.idle_of_parks {pc : PollerPc} (h : pc.parks = true) : pc.idle = true := by
  cases pc <;> simp_all [PollerPc.idle, PollerPc.parks]

/-! ## Who holds `park` -/

/-- `o` is where it holds `park`. -/
def holders (poller : PollerPc) (drive : T → DrivePc) (drop : DropPc) : Owner T → Bool
  | .poller => poller.holds
  | .drive t => (drive t).holds
  | .drop => drop.holds

def Driver.holdsBy (s : Driver T) : Owner T → Bool := holders s.poller s.drive s.drop

def ParkInv (s : Driver T) : Prop := ∀ o, s.park = some o ↔ s.holdsBy o

omit [DecidableEq T] in
theorem parkInv_new : ParkInv (.new T) := by
  intro o
  cases o <;>
    simp [Driver.new, Driver.holdsBy, holders, PollerPc.holds, DrivePc.holds, DropPc.holds]

section Park

omit [DecidableEq T]

variable {o : Owner T} (h : ParkInv s)
include h

theorem ParkInv.same (hpark : s'.park = s.park) (hsame : ∀ p, s'.holdsBy p = s.holdsBy p) :
    ParkInv s' := by
  intro p
  rw [hpark, hsame p]
  exact h p

theorem ParkInv.lock (hfree : s.park = none) (hpark : s'.park = some o) (ho : s'.holdsBy o)
    (hother : ∀ p, p ≠ o → s'.holdsBy p = s.holdsBy p) : ParkInv s' := by
  intro p
  by_cases hp : p = o
  · subst hp
    simp [hpark, ho]
  · rw [hother p hp, ← h p, hfree, hpark]
    simp [Ne.symm hp]

theorem ParkInv.unlock (ho : s.holdsBy o) (hpark : s'.park = none) (ho' : s'.holdsBy o = false)
    (hother : ∀ p, p ≠ o → s'.holdsBy p = s.holdsBy p) : ParkInv s' := by
  intro p
  by_cases hp : p = o
  · subst hp
    simp [hpark, ho']
  · rw [hother p hp, ← h p, (h o).2 ho, hpark]
    simp [Ne.symm hp]

/-- At most one holds `park`. -/
theorem ParkInv.unique {p : Owner T} (ho : s.holdsBy o) (hne : p ≠ o) : s.holdsBy p = false := by
  by_contra hp
  have hpark := ((h o).2 ho).symm.trans ((h p).2 (by simpa using hp))
  exact hne (Option.some.inj hpark).symm

end Park

section Holders

variable {poller : PollerPc} {drive : T → DrivePc} {drop : DropPc} {t : T} {pc : DrivePc}

theorem holders_update_self :
    holders poller (Function.update drive t pc) drop (.drive t) = pc.holds := by
  simp [holders]

theorem holders_update {p : Owner T} (hp : p ≠ .drive t) :
    holders poller (Function.update drive t pc) drop p = holders poller drive drop p := by
  cases p with
  | drive u =>
    have hne : u ≠ t := fun h => hp (h ▸ rfl)
    simp [holders, hne]
  | poller | drop => rfl

/-- A thread that stays on its side of the lock leaves it as it was. -/
theorem holders_update_same (hpc : pc.holds = (drive t).holds) (p : Owner T) :
    holders poller (Function.update drive t pc) drop p = holders poller drive drop p := by
  by_cases hp : p = .drive t
  · subst hp
    rw [holders_update_self, hpc]
    rfl
  · exact holders_update hp

end Holders

theorem parkInv_step (h : ParkInv s) (hstep : driverStep s e = some s') : ParkInv s' := by
  cases driverStep_moves hstep with
  | @first t hpc | @another t hpc =>
    exact h.same rfl fun p => holders_update_same (by rw [hpc]; rfl) p
  | @returnGuard t hpc =>
    exact h.same rfl fun p => holders_update_same (by rw [hpc]; rfl) p
  | @notifyDrive t hpc =>
    refine h.same rfl fun p => (holders_update_same (by rw [hpc]; rfl) p).trans ?_
    cases p <;> simp [Driver.holdsBy, holders, Driver.setDrive, notifyOne_holds]
  | @lockDrive t hpc hpark =>
    exact h.lock hpark rfl holders_update_self
      fun p hp => holders_update hp
  | @unlockDrive t hpc =>
    exact h.unlock (o := .drive t) (by simp [Driver.holdsBy, holders, hpc, DrivePc.holds]) rfl
      holders_update_self fun p hp => holders_update hp
  | fetchSub => exact h.same rfl fun p => by cases p <;> rfl
  | storeShutdown hpc | join hpc =>
    refine h.same rfl fun p => ?_
    cases p <;> simp [Driver.holdsBy, holders, hpc, DropPc.holds]
  | notifyDrop hpc =>
    refine h.same rfl fun p => ?_
    cases p <;> simp [Driver.holdsBy, holders, hpc, DropPc.holds, notifyOne_holds]
  | lockDrop hpc hpark =>
    refine h.lock hpark rfl rfl fun p hp => ?_
    cases p <;> simp_all [Driver.holdsBy, holders]
  | unlockDrop hpc =>
    refine h.unlock (o := .drop) (by simp [Driver.holdsBy, holders, hpc, DropPc.holds]) rfl rfl
      fun p hp => ?_
    cases p <;> simp_all [Driver.holdsBy, holders]
  | lockPoller hpc hpark =>
    refine h.lock hpark rfl rfl fun p hp => ?_
    cases p <;> simp_all [Driver.holdsBy, holders]
  | wait hpc | unlockPoller hpc =>
    refine h.unlock (o := .poller) (by simp [Driver.holdsBy, holders, hpc, PollerPc.holds]) rfl rfl
      fun p hp => ?_
    cases p <;> simp_all [Driver.holdsBy, holders]
  | loadActive hpc hload | loadShutdown hpc hload | testShutdown hpc hload =>
    refine h.same rfl fun p => ?_
    obtain ⟨-, rfl⟩ | ⟨-, rfl⟩ := hload <;>
      cases p <;> simp [Driver.holdsBy, holders, hpc, PollerPc.holds]
  | readEntry hpc | readEmpty hpc | spurious hpc =>
    refine h.same rfl fun p => ?_
    cases p <;> simp [Driver.holdsBy, holders, hpc, PollerPc.holds]

/-! ## Who has still to notify -/

/-- `active` became positive since the poller loaded it. -/
def Waking (s : Driver T) : Prop := s.poller.idle → 0 < s.active → ∃ t, (s.drive t).wakes

/-- `shutdown` was set since the poller loaded it. -/
def Stopping (s : Driver T) : Prop := s.poller.parks → s.shutdown → s.drop.wakes

def ShutdownInv (s : Driver T) : Prop := s.shutdown = true ↔ s.drop ≠ .idle

/-- A thread that has to notify stays one until it has. -/
theorem exists_wakes_update {drive : T → DrivePc} {t : T} {pc : DrivePc}
    (h : ∃ u, (drive u).wakes) (ht : (drive t).wakes = false ∨ pc.wakes = true) :
    ∃ u, (Function.update drive t pc u).wakes := by
  obtain ⟨u, hu⟩ := h
  by_cases hut : u = t
  · subst hut
    refine ⟨u, ?_⟩
    rw [Function.update_self]
    exact ht.resolve_left (by rw [hu]; decide)
  · exact ⟨u, by rwa [Function.update_of_ne hut]⟩

omit [DecidableEq T] in
/-- A thread that notifies holds `park`, so the poller does not; it is not going to wait then. -/
theorem ParkInv.notified (h : ParkInv s) {o : Owner T} (ho : s.holdsBy o) (hne : o ≠ .poller) :
    (notifyOne s.poller).idle = false :=
  notifyOne_idle (h.unique ho hne.symm)

omit [DecidableEq T] in
theorem ParkInv.notified_drive (h : ParkInv s) {t : T} (hpc : s.drive t = .parked) :
    (notifyOne s.poller).idle = false :=
  h.notified (o := .drive t) (by simp [Driver.holdsBy, holders, hpc, DrivePc.holds]) (by simp)

omit [DecidableEq T] in
theorem ParkInv.notified_drop (h : ParkInv s) (hpc : s.drop = .parked) :
    (notifyOne s.poller).idle = false :=
  h.notified (o := .drop) (by simp [Driver.holdsBy, holders, hpc, DropPc.holds]) (by simp)

theorem waking_step (hpark : ParkInv s) (h : Waking s) (hstep : driverStep s e = some s') :
    Waking s' := by
  intro hidle hactive
  cases driverStep_moves hstep with
  | @first t hpc hzero => exact ⟨t, by simp [Driver.setDrive, DrivePc.wakes]⟩
  | another hpc hpos => exact exists_wakes_update (h hidle hpos) (.inl (by rw [hpc]; rfl))
  | lockDrive hpc => exact exists_wakes_update (h hidle hactive) (.inr rfl)
  | @notifyDrive t hpc =>
    rw [hpark.notified_drive hpc] at hidle
    cases hidle
  | unlockDrive hpc | returnGuard hpc =>
    exact exists_wakes_update (h hidle hactive) (.inl (by rw [hpc]; rfl))
  | fetchSub hguards => exact h hidle (by simp only at hactive; omega)
  | notifyDrop hpc =>
    rw [hpark.notified_drop hpc] at hidle
    cases hidle
  | storeShutdown | lockDrop | unlockDrop | join => exact h hidle hactive
  | loadActive hpc hload =>
    rcases hload with ⟨hzero, rfl⟩ | ⟨-, rfl⟩
    · simp only at hactive
      omega
    · cases hidle
  | loadShutdown hpc hload => exact h (by rw [hpc]; rfl) hactive
  | wait hpc => exact h (by rw [hpc]; rfl) hactive
  | testShutdown hpc hload => obtain ⟨-, rfl⟩ | ⟨-, rfl⟩ := hload <;> cases hidle
  | lockPoller | unlockPoller | readEntry | readEmpty | spurious => cases hidle

theorem stopping_step (hpark : ParkInv s) (h : Stopping s) (hstep : driverStep s e = some s') :
    Stopping s' := by
  intro hparks hshutdown
  cases driverStep_moves hstep with
  | first | another | lockDrive | unlockDrive | returnGuard | fetchSub =>
    exact h hparks hshutdown
  | storeShutdown | lockDrop => rfl
  | @notifyDrive t hpc =>
    have hidle := hpark.notified_drive hpc
    rw [PollerPc.idle_of_parks hparks] at hidle
    cases hidle
  | notifyDrop hpc =>
    have hidle := hpark.notified_drop hpc
    rw [PollerPc.idle_of_parks hparks] at hidle
    cases hidle
  | unlockDrop hpc | join hpc =>
    have := h hparks hshutdown
    rw [hpc] at this
    cases this
  | loadActive hpc hload | testShutdown hpc hload =>
    rcases hload with ⟨-, rfl⟩ | ⟨-, rfl⟩ <;> cases hparks
  | loadShutdown hpc hload =>
    rcases hload with ⟨hclear, rfl⟩ | ⟨-, rfl⟩
    · rw [hclear] at hshutdown
      cases hshutdown
    · cases hparks
  | wait hpc => exact h (by rw [hpc]; rfl) hshutdown
  | lockPoller | unlockPoller | readEntry | readEmpty | spurious => cases hparks

theorem shutdownInv_step (h : ShutdownInv s) (hstep : driverStep s e = some s') :
    ShutdownInv s' := by
  unfold ShutdownInv at h ⊢
  cases driverStep_moves hstep <;> simp_all [Driver.setDrive]

/-! ## What `active` counts -/

section Active

variable [Fintype T] {drive : T → DrivePc} {t : T} {pc : DrivePc}

/-- The calls of `drive` that have incremented `active` and not returned yet. -/
def driving (drive : T → DrivePc) : Finset T := Finset.univ.filter fun t => drive t ≠ .idle

theorem driving_enter (hidle : drive t = .idle) (hpc : pc ≠ .idle) :
    (driving (Function.update drive t pc)).card = (driving drive).card + 1 := by
  have hset : driving (Function.update drive t pc) = insert t (driving drive) := by
    ext u
    by_cases hut : u = t
    · subst hut
      simp [driving, hpc]
    · simp [driving, hut]
  rw [hset, Finset.card_insert_of_notMem (by simp [driving, hidle])]

theorem driving_stay (hdrive : drive t ≠ .idle) (hpc : pc ≠ .idle) :
    (driving (Function.update drive t pc)).card = (driving drive).card := by
  congr 1
  ext u
  by_cases hut : u = t
  · subst hut
    simp [driving, hpc, hdrive]
  · simp [driving, hut]

theorem driving_leave (hdrive : drive t ≠ .idle) :
    (driving (Function.update drive t .idle)).card + 1 = (driving drive).card := by
  have hset : driving (Function.update drive t .idle) = (driving drive).erase t := by
    ext u
    by_cases hut : u = t
    · subst hut
      simp [driving]
    · simp [driving, hut]
  rw [hset, Finset.card_erase_add_one (by simp [driving, hdrive])]

def ActiveInv (s : Driver T) : Prop := s.active = s.guards + (driving s.drive).card

theorem activeInv_step (h : ActiveInv s) (hstep : driverStep s e = some s') : ActiveInv s' := by
  unfold ActiveInv at h ⊢
  cases driverStep_moves hstep with
  | first hpc | another hpc =>
    simp only [Driver.setDrive]
    rw [driving_enter hpc (by simp), h]
    omega
  | lockDrive hpc | notifyDrive hpc | unlockDrive hpc =>
    simp only [Driver.setDrive]
    rw [driving_stay (by rw [hpc]; simp) (by simp)]
    exact h
  | @returnGuard t hpc =>
    have : (driving (Function.update s.drive t .idle)).card + 1 = (driving s.drive).card :=
      driving_leave (by rw [hpc]; simp)
    simp only [Driver.setDrive]
    omega
  | fetchSub hguards =>
    simp only
    omega
  | _ => exact h

end Active

/-! ## Every run -/

structure DriverInv (s : Driver T) : Prop where
  park : ParkInv s
  waking : Waking s
  stopping : Stopping s
  shutdown : ShutdownInv s

omit [DecidableEq T] in
theorem driverInv_new : DriverInv (.new T) where
  park := parkInv_new
  waking h := by cases h
  stopping h := by cases h
  shutdown := by simp [ShutdownInv, Driver.new]

theorem driverInv_step (h : DriverInv s) (hstep : driverStep s e = some s') : DriverInv s' where
  park := parkInv_step h.park hstep
  waking := waking_step h.park h.waking hstep
  stopping := stopping_step h.park h.stopping hstep
  shutdown := shutdownInv_step h.shutdown hstep

omit [DecidableEq T] in
/-- A poller that waits while there is something to do is about to be woken. -/
theorem DriverInv.wakePending (h : DriverInv s) (hwait : s.poller = .waiting)
    (hdue : 0 < s.active ∨ s.shutdown = true) : s.WakePending := by
  rcases hdue with hactive | hshutdown
  · exact .inl (h.waking (by rw [hwait]; rfl) hactive)
  · exact .inr (h.stopping (by rw [hwait]; rfl) hshutdown)

/-! ## Past the notification of `drop` -/

def DropPc.past (pc : DropPc) : Bool := pc = .notified || pc = .joining || pc = .dropped

omit [DecidableEq T] in
/-- Past it the poller neither waits nor is about to. -/
theorem DriverInv.not_parks (h : DriverInv s) (hpast : s.drop.past) : s.poller.parks = false := by
  by_contra hparks
  have hshutdown : s.shutdown = true :=
    h.shutdown.2 fun hidle => by simp [hidle, DropPc.past] at hpast
  have hwakes := h.stopping (by simpa using hparks) hshutdown
  cases hdrop : s.drop <;> simp [hdrop, DropPc.past, DropPc.wakes] at hpast hwakes

/-- How many steps the poller has left at most, the entries it reads aside. -/
def PollerPc.rank : PollerPc → Nat
  | .returned => 0
  | .stopCheck => 1
  | .leaving => 2
  | .shutdownCheck => 3
  | .activeCheck => 4
  | .locking => 5
  | .draining => 6
  | .parking | .waiting => 7

/-- The steps of `poll_loop`. -/
def PollerStep : DriverStep T → Prop
  | .lockPoller | .loadActive | .loadShutdown | .wait | .unlockPoller | .testShutdown
  | .readQueue _ | .spurious => True
  | _ => False

theorem past_step (h : s.drop.past) (hstep : driverStep s e = some s') : s'.drop.past := by
  cases driverStep_moves hstep with
  | storeShutdown hpc | lockDrop hpc | notifyDrop hpc => simp [hpc, DropPc.past] at h
  | unlockDrop | join => rfl
  | _ => exact h

/-- No step of another thread moves a poller that does not wait. -/
theorem poller_step_other (hwait : s.poller ≠ .waiting) (he : ¬ PollerStep e)
    (hstep : driverStep s e = some s') : s'.poller = s.poller := by
  have hnotify : notifyOne s.poller = s.poller := by
    cases hpc : s.poller <;> first | rfl | exact absurd hpc hwait
  cases driverStep_moves hstep with
  | notifyDrive | notifyDrop => exact hnotify
  | first | another | lockDrive | unlockDrive | returnGuard | fetchSub | storeShutdown | lockDrop
  | unlockDrop | join => rfl
  | lockPoller | loadActive | loadShutdown | wait | unlockPoller | testShutdown | readEntry
  | readEmpty | spurious => exact absurd trivial he

/-- Each step of the poller that does not read an entry brings it nearer to its end. -/
theorem rank_poller (h : DriverInv s) (hpast : s.drop.past) (he : PollerStep e)
    (hentry : e ≠ .readQueue true) (hstep : driverStep s e = some s') :
    s'.poller.rank < s.poller.rank := by
  have hparks := h.not_parks hpast
  have hshutdown : s.shutdown = true :=
    h.shutdown.2 fun hidle => by simp [hidle, DropPc.past] at hpast
  cases driverStep_moves hstep with
  | lockPoller hpc | unlockPoller hpc | readEmpty hpc | spurious hpc => simp [hpc, PollerPc.rank]
  | wait hpc => simp [hpc, PollerPc.parks] at hparks
  | loadActive hpc hload => obtain ⟨-, rfl⟩ | ⟨-, rfl⟩ := hload <;> simp [hpc, PollerPc.rank]
  | loadShutdown hpc hload | testShutdown hpc hload =>
    rcases hload with ⟨hclear, -⟩ | ⟨-, rfl⟩
    · rw [hshutdown] at hclear
      cases hclear
    · simp [hpc, PollerPc.rank]
  | readEntry => exact absurd rfl hentry
  | _ => exact he.elim

theorem rank_le (h : DriverInv s) (hpast : s.drop.past) (hstep : driverStep s e = some s') :
    s'.poller.rank ≤ s.poller.rank := by
  by_cases he : PollerStep e
  · by_cases hentry : e = .readQueue true
    · subst hentry
      cases driverStep_moves hstep with
      | readEntry hpc => simp [hpc]
    · exact (rank_poller h hpast he hentry hstep).le
  · have hwait : s.poller ≠ .waiting := by
      intro hwait
      simpa [hwait, PollerPc.parks] using h.not_parks hpast
    rw [poller_step_other hwait he hstep]

theorem draining_of_readQueue {entry : Bool}
    (hstep : driverStep s (.readQueue entry) = some s') : s.poller = .draining := by
  by_contra hpc
  simp [driverStep, hpc] at hstep

theorem poller_enabled (hreturned : s.poller ≠ .returned)
    (hpark : s.poller = .locking → s.park = none) : Fair.Enabled driverStep PollerStep s := by
  cases hpc : s.poller with
  | locking => exact ⟨.lockPoller, trivial, by simp [driverStep, hpc, hpark hpc]⟩
  | activeCheck => exact ⟨.loadActive, trivial, by simp [driverStep, hpc]⟩
  | shutdownCheck => exact ⟨.loadShutdown, trivial, by simp [driverStep, hpc]⟩
  | parking => exact ⟨.wait, trivial, by simp [driverStep, hpc]⟩
  | waiting => exact ⟨.spurious, trivial, by simp [driverStep, hpc]⟩
  | leaving => exact ⟨.unlockPoller, trivial, by simp [driverStep, hpc]⟩
  | stopCheck => exact ⟨.testShutdown, trivial, by simp [driverStep, hpc]⟩
  | draining => exact ⟨.readQueue true, trivial, by simp [driverStep, hpc]⟩
  | returned => exact absurd hpc hreturned

/-! ## Fair schedules -/

/-- A thread that holds `park` goes on, the poller does not stay behind when it could step again
and again, and `fi_cq_read` comes to the end of the queue. -/
structure FairDriver (r : Fair.Schedule (driverStep (T := T))) : Prop where
  drive : ∀ t, r.WeaklyFair fun e => e = .notifyDrive t ∨ e = .unlockDrive t
  drop : r.WeaklyFair fun e => e = .notifyDrop ∨ e = .unlockDrop
  poller : r.StronglyFair PollerStep
  drains : ∀ n, ∃ m, n ≤ m ∧ (r.state m).poller ≠ .draining

/-- What a step does to a thread that holds `park`. -/
theorem drive_step (t : T) (hstep : driverStep s e = some s') :
    s'.drive t = s.drive t ∨ (s.drive t).holds = false ∨
      (s.drive t = .parked ∧ s'.drive t = .notified) ∨ s'.park = none := by
  cases driverStep_moves hstep with
  | @first u hpc | @another u hpc | @lockDrive u hpc | @returnGuard u hpc =>
    by_cases hu : t = u
    · subst hu
      exact .inr (.inl (by rw [hpc]; rfl))
    · exact .inl (by simp [Driver.setDrive, hu])
  | @notifyDrive u hpc =>
    by_cases hu : t = u
    · subst hu
      exact .inr (.inr (.inl ⟨hpc, by simp [Driver.setDrive]⟩))
    · exact .inl (by simp [Driver.setDrive, hu])
  | unlockDrive => exact .inr (.inr (.inr rfl))
  | _ => exact .inl rfl

section Schedules

variable {r : Fair.Schedule (driverStep (T := T))} {n : Nat}

theorem unlocks_drive (hfair : FairDriver r) {t : T} (h : ((r.state n).drive t).holds) :
    ∃ m, n ≤ m ∧ (r.state m).park = none := by
  have hunlock : ∀ {n}, (r.state n).drive t = .notified → ∃ m, n ≤ m ∧ (r.state m).park = none := by
    intro n hn
    refine Fair.Schedule.leads_of_weak (P := fun s => s.drive t = .notified)
      (Q := fun s => s.park = none) (hfair.drive t) ?_ ?_ ?_ hn
    · intro s e s' hs hstep
      rcases drive_step t hstep with h | h | h | h
      · exact .inl (h.trans hs)
      · simp [hs, DrivePc.holds] at h
      · simp [hs] at h
      · exact .inr h
    · rintro s e s' hs (rfl | rfl) hstep
      · simp [driverStep, hs] at hstep
      · cases driverStep_moves hstep
        rfl
    · exact fun hs => ⟨.unlockDrive t, .inr rfl, by simp [driverStep, hs]⟩
  cases hpc : (r.state n).drive t with
  | notified => exact hunlock hpc
  | parked =>
    obtain ⟨m, hle, hm⟩ := Fair.Schedule.leads_of_weak (P := fun s => s.drive t = .parked)
      (Q := fun s => s.drive t = .notified ∨ s.park = none) (hfair.drive t) (by
        intro s e s' hs hstep
        rcases drive_step t hstep with h | h | h | h
        · exact .inl (h.trans hs)
        · simp [hs, DrivePc.holds] at h
        · exact .inr (.inl h.2)
        · exact .inr (.inr h))
      (by
        rintro s e s' hs (rfl | rfl) hstep
        · cases driverStep_moves hstep
          exact .inl (by simp [Driver.setDrive])
        · simp [driverStep, hs] at hstep)
      (fun hs => ⟨.notifyDrive t, .inl rfl, by simp [driverStep, hs]⟩) hpc
    rcases hm with hm | hm
    · obtain ⟨m', hle', hm'⟩ := hunlock hm
      exact ⟨m', by omega, hm'⟩
    · exact ⟨m, hle, hm⟩
  | idle | waking | counted => simp [hpc, DrivePc.holds] at h

/-- Past its notification, `drop` holds `park` only until it unlocks. -/
theorem unlocks_drop (hfair : FairDriver r) (h : (r.state n).drop = .notified) :
    ∃ m, n ≤ m ∧ (r.state m).park = none := by
  refine Fair.Schedule.leads_of_weak (P := fun s => s.drop = .notified)
    (Q := fun s => s.park = none) hfair.drop ?_ ?_ ?_ h
  · intro s e s' hs hstep
    cases driverStep_moves hstep with
    | storeShutdown hpc | lockDrop hpc | notifyDrop hpc | join hpc => simp [hs] at hpc
    | unlockDrop => exact .inr rfl
    | _ => exact .inl hs
  · rintro s e s' hs (rfl | rfl) hstep
    · simp [driverStep, hs] at hstep
    · cases driverStep_moves hstep
      rfl
  · exact fun hs => ⟨.unlockDrop, .inr rfl, by simp [driverStep, hs]⟩

/-- A poller that wants `park` finds it free again and again. -/
theorem unlocks (hfair : FairDriver r) (h : DriverInv (r.state n)) (hpast : (r.state n).drop.past)
    (hpoller : (r.state n).poller = .locking) : ∃ m, n ≤ m ∧ (r.state m).park = none := by
  cases hpark : (r.state n).park with
  | none => exact ⟨n, le_rfl, hpark⟩
  | some o =>
    have ho := (h.park o).1 hpark
    cases o with
    | poller => simp [Driver.holdsBy, holders, hpoller, PollerPc.holds] at ho
    | drive t => exact unlocks_drive hfair ho
    | drop =>
      apply unlocks_drop hfair
      cases hdrop : (r.state n).drop <;>
        simp_all [Driver.holdsBy, holders, DropPc.holds, DropPc.past]

/-- The state past the notification is kept. -/
theorem past_inv {m : Nat} (h : DriverInv (r.state n) ∧ (r.state n).drop.past) (hle : n ≤ m) :
    DriverInv (r.state m) ∧ (r.state m).drop.past :=
  Fair.Schedule.inv_of_step (I := fun s => DriverInv s ∧ s.drop.past)
    (fun hs hstep => ⟨driverInv_step hs.1 hstep, past_step hs.2 hstep⟩) h hle

/-- The poller does something else than reading entries, or has returned. -/
theorem poller_occurs (hfair : FairDriver r) (h : DriverInv (r.state n) ∧ (r.state n).drop.past) :
    ∃ m, n ≤ m ∧ ((r.state m).poller = .returned ∨
      r.Occurs (fun e => PollerStep e ∧ e ≠ .readQueue true) m) := by
  by_contra hnever
  push Not at hnever
  obtain ⟨k, hk, hdrain⟩ := hfair.drains n
  -- no step moves the poller from there on
  have hsame : ∀ m, k ≤ m → (r.state m).poller = (r.state k).poller := by
    intro m hle
    induction m, hle using Nat.le_induction with
    | base => rfl
    | succ m hle ih =>
      rcases r.next m with ⟨e, hevent, hstep⟩ | ⟨-, hnext⟩
      · by_cases he : PollerStep e
        · by_cases hentry : e = .readQueue true
          · subst hentry
            exact absurd (ih.symm.trans (draining_of_readQueue hstep)) hdrain
          · exact absurd ⟨e, hevent, he, hentry⟩ (hnever m (by omega)).2
        · rw [← ih]
          refine poller_step_other (fun hwait => ?_) he hstep
          have hinv := past_inv h (by omega : n ≤ m)
          simpa [hwait, PollerPc.parks] using hinv.1.not_parks hinv.2
      · rw [hnext, ih]
  have hoften : ∀ m, k ≤ m → ∃ l, m ≤ l ∧ Fair.Enabled driverStep PollerStep (r.state l) := by
    intro m hle
    by_cases hlock : (r.state k).poller = .locking
    · have hinv := past_inv h (by omega : n ≤ m)
      obtain ⟨l, hl, hpark⟩ := unlocks hfair hinv.1 hinv.2 ((hsame m hle).trans hlock)
      exact ⟨l, hl, poller_enabled (hnever l (by omega)).1 fun _ => hpark⟩
    · refine ⟨m, le_rfl, poller_enabled (hnever m (by omega)).1 fun hm => ?_⟩
      exact absurd ((hsame m hle).symm.trans hm) hlock
  obtain ⟨m, hle, e, hevent, he⟩ := hfair.poller k hoften
  refine (hnever m (by omega)).2 ⟨e, hevent, he, ?_⟩
  rintro rfl
  rcases r.next m with ⟨e', hevent', hstep⟩ | ⟨hnone, -⟩
  · obtain rfl := Option.some.inj (hevent.symm.trans hevent')
    exact hdrain ((hsame m hle).symm.trans (draining_of_readQueue hstep))
  · rw [hevent] at hnone
    cases hnone

theorem poller_returns (hfair : FairDriver r) (h : DriverInv (r.state n))
    (hpast : (r.state n).drop.past) : ∃ m, n ≤ m ∧ (r.state m).poller = .returned :=
  Fair.Schedule.leads_of_rank (A := fun e => PollerStep e ∧ e ≠ .readQueue true)
    (I := fun s => DriverInv s ∧ s.drop.past) (Q := fun s => s.poller = .returned)
    (fun s => s.poller.rank)
    (fun hs hstep => ⟨⟨driverInv_step hs.1 hstep, past_step hs.2 hstep⟩, rank_le hs.1 hs.2 hstep⟩)
    (fun hs he hstep => rank_poller hs.1 hs.2 he.1 he.2 hstep)
    (fun _ hs => poller_occurs hfair hs) ⟨h, hpast⟩

end Schedules

/-! ## The poller never sleeps -/

/-- In every run `active` is the number of the live guards and of the drives that have incremented
it, and a poller that waits while `active` is positive or `shutdown` is set is about to be woken.
In a fair schedule it returns after the notification of `drop`. -/
theorem poller_never_sleeps [Fintype T] :
    (∀ es s, Exec.run driverStep (.new T) es = some s →
      s.active = s.guards + (driving s.drive).card ∧
        (s.poller = .waiting → 0 < s.active ∨ s.shutdown = true → s.WakePending)) ∧
    ∀ r : Fair.Schedule (driverStep (T := T)), r.state 0 = .new T → FairDriver r →
      ∀ n, (r.state n).drop.past → ∃ m, n ≤ m ∧ (r.state m).poller = .returned := by
  refine ⟨fun es s hrun => ?_, fun r h0 hfair n hpast => ?_⟩
  · have hinv : DriverInv s := Exec.run_inv driverInv_step driverInv_new hrun
    have hnew : ActiveInv (.new T) := by simp [ActiveInv, Driver.new, driving]
    exact ⟨Exec.run_inv activeInv_step hnew hrun, hinv.wakePending⟩
  · have hinv : DriverInv (r.state n) :=
      Fair.Schedule.inv_of_step driverInv_step (h0 ▸ driverInv_new) (Nat.zero_le n)
    exact poller_returns hfair hinv hpast

/-- The driver is dropped while the poller waits. -/
def dropRun : List (DriverStep Unit) :=
  [.lockPoller, .loadActive, .loadShutdown, .wait, .storeShutdown, .lockDrop, .notifyDrop,
    .unlockDrop, .lockPoller, .loadActive, .loadShutdown, .unlockPoller, .testShutdown, .join]

theorem dropRun_isSome : (Exec.run driverStep (.new Unit) dropRun).isSome = true := rfl

def dropSchedule : Fair.Schedule (driverStep (T := Unit)) :=
  .ofRun (.new Unit) dropRun dropRun_isSome

/-- At its end nothing can happen but a new call of `drive`. -/
theorem dropSchedule_fair {A : DriverStep Unit → Prop} (hA : ¬ A (.fetchAdd ())) :
    dropSchedule.StronglyFair A := by
  refine Fair.Schedule.ofRun_stronglyFair fun ⟨e, he, henabled⟩ => ?_
  cases e with
  | fetchAdd => exact hA he
  | readQueue entry => cases henabled
  | _ => cases henabled

theorem dropSchedule_state {n : Nat} (hn : dropRun.length ≤ n) :
    (dropSchedule.state n).poller = .returned ∧ (dropSchedule.state n).drop = .dropped := by
  rw [dropSchedule, Fair.Schedule.ofRun_state hn]
  exact ⟨rfl, rfl⟩

theorem fairDriver_dropSchedule : FairDriver dropSchedule where
  drive t := (dropSchedule_fair (by simp)).weaklyFair
  drop := (dropSchedule_fair (by simp)).weaklyFair
  poller := dropSchedule_fair (by simp [PollerStep])
  drains n := ⟨max n dropRun.length, le_max_left _ _, by
    rw [(dropSchedule_state (le_max_right _ _)).1]
    decide⟩

theorem poller_never_sleeps_dropped : ∃ m, (dropSchedule.state m).poller = .returned := by
  obtain ⟨m, -, hm⟩ := (poller_never_sleeps (T := Unit)).2 dropSchedule rfl fairDriver_dropSchedule
    dropRun.length (by rw [(dropSchedule_state le_rfl).2]; rfl)
  exact ⟨m, hm⟩

end Dma
