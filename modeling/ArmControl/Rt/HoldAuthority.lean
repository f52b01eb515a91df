import ArmControl.Lib.Run
import ArmControl.Lib.Since
import ArmControl.Rt.HoldLoop

/-!
# Hold never borrows authority

Every tick that holds gives the limiter a command at rest: zero velocity and feedforward, gains that the generation has earned, and the
pose that was measured when the hold began.

* `captured`           the position of a joint over a hold interval;
* `Spans`              a hold interval: ticks that hold, none but the first of which restarts it;
* `HoldsStill`         what a tick that holds gives to the limiter;
* `HoldInv`            the invariant, one lemma for each part of the tick;
* `hold_never_borrows` **every tick that holds, holds still, in every run;**
* `trip_keeps_pose`    a trip without a running reference restarts no interval.
-/

namespace ArmControl.Rt
namespace RtLoop
open Run History

/-- the events that begin a new hold interval -/
def Tick.restarts (t : Tick) : Bool :=
  t.edge || t.cancelled || t.confirmed || t.underflowed || t.expired || (t.tripped && t.running) || t.taken.isSome

/-- a joint's position over an interval: as measured at its first tick, and again where the active mask gained the joint -/
def captured (c : Tick) (m : List Tick) (j : ℕ) : F64 := m.foldl (fun x t => if t.added j then t.q j else x) (c.q j)

/-- the latest tick held -/
def EndsHeld (ticks : List Tick) : Prop := ∃ t, ticks.getLast? = some t ∧ t.outcome = .held

/-- the hold interval that begins at `c`, after the ticks `p` -/
structure Spans (restarts : Tick → Bool) (p : List Tick) (c : Tick) (m : List Tick) : Prop where
  held : ∀ t ∈ c :: m, t.outcome = .held
  quiet : ∀ t ∈ m, restarts t = false
  starts : restarts c = true ∨ ¬ EndsHeld p

/-- the gains are those of a command that was taken up in this generation -/
def Given (gives : Tick → Bool) (ticks : List Tick) (gen : ℕ) (kp kd : ℕ → F64) : Prop :=
  ∃ t ∈ ticks, gives t = true ∧ t.gen = gen ∧ ∃ w, t.taken = some w ∧ kp = w.kp ∧ kd = w.kd

/-- the command that the limiter gets from a tick that holds -/
structure HoldsStill (k : HoldConfig) (restarts gives : Tick → Bool) (before : List Tick) (t : Tick) : Prop where
  still : ∀ j, t.selected.qdDes j = .zero ∧ t.selected.tauFf j = .zero
  gains : ∃ kp kd, t.selected.kp = upTo k.cfg.n kp ∧ t.selected.kd = upTo k.cfg.n kd ∧
    ((kp = (fun _ => k.holdKp) ∧ kd = fun _ => k.holdKd) ∨ Given gives (before ++ [t]) t.gen kp kd)
  pose : ∃ p c m, before ++ [t] = p ++ c :: m ∧ Spans restarts p c m ∧ ∀ j < k.cfg.n, t.selected.qDes j = captured c m j

/-- a tick that holds, holds still -/
def Holds (k : HoldConfig) (restarts gives : Tick → Bool) (before : List Tick) (t : Tick) : Prop :=
  t.outcome = .held → HoldsStill k restarts gives before t

/-! ## the loop beside the hold -/

section
variable (cfg : ServerConfig) (r : RtLoop) (sh : Shared) (p : Published) (env : RtEnv)

theorem front_plant (h : env.readOk = true) :
    (r.front cfg sh p env).1.plantOk = r.plantOk ∧ (r.front cfg sh p env).1.seenGen = r.seenGen ∧ (r.front cfg sh p env).1.pc ≠ .front := by
  obtain ⟨m, g, e, fb, d, q, ref, c, s, hprepared⟩ := prepared_frame cfg r p env.now sh
  obtain ⟨ref', res, s', d', n, w, hcommit⟩ :=
    commitStep_frame (r.prepared cfg sh p env.now) p env.now sh.fault sh.slot sh.slotBusy
  obtain ⟨t, f, w', dn, i, hhead⟩ := groupHead_frame cfg
    (((r.prepared cfg sh p env.now).commitStep sh.slot p env.now sh.fault sh.slotBusy).1.publishReference env.now) p
    ((r.prepared cfg sh p env.now).commitStep sh.slot p env.now sh.fault sh.slotBusy).2 sh.slotBusy
  have hread : ¬ env.readOk = false := by rw [h]; exact Bool.noConfusion
  unfold front
  rw [if_neg hread]
  dsimp only
  rw [hhead]
  refine ⟨?_, ?_, ?_⟩
  · show ((r.prepared cfg sh p env.now).commitStep sh.slot p env.now sh.fault sh.slotBusy).1.plantOk = r.plantOk
    rw [hcommit, hprepared]
    rfl
  · show ((r.prepared cfg sh p env.now).commitStep sh.slot p env.now sh.fault sh.slotBusy).1.seenGen = r.seenGen
    rw [hcommit, hprepared]
    rfl
  · show (if inGroup cfg p = true then RtPc.done else .servo) ≠ .front
    split_ifs <;> exact RtPc.noConfusion

theorem doneWrite_plant (slot : GroupSlot) (committed contended : Bool) :
    (r.doneWrite slot committed contended).1.plantOk = r.plantOk ∧ (r.doneWrite slot committed contended).1.seenGen = r.seenGen := by
  unfold doneWrite
  split_ifs <;> exact ⟨rfl, rfl⟩

theorem faultMirror_plant : (r.faultMirror sh).1.plantOk = r.plantOk ∧ (r.faultMirror sh).1.seenGen = r.seenGen := by
  unfold faultMirror
  split_ifs <;> exact ⟨rfl, rfl⟩

theorem peerCheck_plant (committed : Bool) :
    (r.peerCheck cfg sh committed env).1.plantOk = r.plantOk ∧ (r.peerCheck cfg sh committed env).1.seenGen = r.seenGen := by
  rcases peerCheck_cases cfg r sh committed env with h | ⟨-, v, h⟩ <;> rw [h] <;> exact ⟨rfl, rfl⟩

/-- observation and expiry leave the plant, the generation and the loads alone -/
theorem retired_plant (gap : Bool) :
    ((r.observeCommand cfg).retireExpired cfg gap).plantOk = r.plantOk ∧
      ((r.observeCommand cfg).retireExpired cfg gap).seenGen = r.seenGen := by
  unfold retireExpired
  split_ifs <;> exact ⟨rfl, rfl⟩

theorem actuate_plant (fresh : Bool) :
    (r.actuate cfg sh fresh env).1.seenGen = r.seenGen ∧
      (r.actuate cfg sh fresh env).1.plantOk = if r.pub.armed = false then r.plantOk else r.plantOk && env.finite && env.wrote := by
  obtain ⟨plant, t, hframe, -⟩ := actuate_frame cfg r sh fresh env
  refine ⟨by rw [hframe], ?_⟩
  unfold actuate
  by_cases harmed : r.pub.armed = false
  · rw [if_pos harmed, if_pos harmed]
  rw [if_neg harmed, if_neg harmed]
  dsimp only
  cases hfinite : env.finite
  · rw [Bool.and_false, Bool.false_and]
    rfl
  rw [Bool.and_true, if_pos rfl, if_pos rfl]
  cases hplant : r.plantOk
  · rw [if_pos rfl, Bool.false_and]
    exact hplant
  rw [if_neg (by decide : ¬ true = false), Bool.true_and]
  cases hwrote : env.wrote <;> rfl

end

/-! ## the invariant -/

/-- the command came from this tick or an earlier one, whatever became of it -/
def anyTick : Tick → Bool := fun _ => true

/-- the pose that is held is the one that the interval has captured, with what the tick in progress adds -/
def Interval (n : ℕ) (ticks : List Tick) (tick : Tick) (qHold : ℕ → F64) : Prop :=
  ∃ p c m, ticks = p ++ c :: m ∧ Spans Tick.restarts p c m ∧
    ∀ j < n, qHold j = if tick.added j then tick.q j else captured c m j

structure HoldInv (k : HoldConfig) (s : State) : Prop where
  /-- between two ticks nothing has happened yet -/
  between : s.loop.pc = .front → s.hold.tick = {}
  interval : s.hold.holding = true → s.hold.tick.restarts = false ∧ Interval k.cfg.n s.hold.ticks s.hold.tick s.hold.qHold
  dropped : s.hold.holding = false → s.hold.tick.restarts = true ∨ ¬ EndsHeld s.hold.ticks ∨ s.loop.plantOk = false
  gains : s.hold.haveCmdGains = true → Given anyTick s.hold.ticks s.loop.seenGen s.hold.cmdKp s.hold.cmdKd
  /-- what later parts of the tick decide -/
  ahead : s.hold.tick.taken = none ∧ s.hold.tick.expired = false ∧ s.hold.tick.edge = false ∧
    (s.loop.pc = .servo ∨ s.hold.tick.tripped = false)
  holds : Justified (Holds k Tick.restarts anyTick) s.hold.ticks

variable {k : HoldConfig} {s : State} {r : RtLoop} {h : Hold} {e : HoldEnv}

/-- the thread before the power is on: any generation, any mask -/
def State.boot (armGen mask : ℕ) : State := { loop := { seenGen := armGen }, hold := { lastActiveMask := mask } }

theorem inv_boot (armGen mask : ℕ) : HoldInv k (State.boot armGen mask) where
  between := fun _ => rfl
  interval := fun h => Bool.noConfusion h
  dropped := fun _ => .inr (.inl fun ⟨_, h, _⟩ => by cases h)
  gains := fun h => Bool.noConfusion h
  ahead := ⟨rfl, rfl, rfl, .inr rfl⟩
  holds := justified_nil

theorem captured_snoc (c : Tick) (m : List Tick) (t : Tick) (j : ℕ) :
    captured c (m ++ [t]) j = if t.added j then t.q j else captured c m j := by
  unfold captured
  rw [List.foldl_append]
  rfl

theorem given_snoc {ticks : List Tick} {gen : ℕ} {kp kd : ℕ → F64} (hg : Given anyTick ticks gen kp kd) (t : Tick) :
    Given anyTick (ticks ++ [t]) gen kp kd := by
  obtain ⟨a, ha, hrest⟩ := hg
  exact ⟨a, List.mem_append_left _ ha, hrest⟩

theorem drop_drop (h : Hold) (a b : Bool) : (h.drop a).drop b = h.drop (a || b) := by
  cases a <;> cases b <;> rfl

/-! ## the front -/

/-- a joint that the mask gains is captured on its own -/
theorem mask_spec (h : Hold) (e : HoldEnv) (ht : h.tick = { q := e.q }) : ∃ added,
    (h.mask e).tick = { q := e.q, added := added } ∧ (h.mask e).holding = h.holding ∧ (h.mask e).ticks = h.ticks ∧
      (h.mask e).haveCmdGains = h.haveCmdGains ∧ (h.mask e).cmdKp = h.cmdKp ∧ (h.mask e).cmdKd = h.cmdKd ∧
      ∀ j, (h.mask e).qHold j = if added j then e.q j else h.qHold j := by
  unfold Hold.mask
  split_ifs
  · refine ⟨fun j => e.requestedMask.testBit j && !h.lastActiveMask.testBit j, ?_, rfl, rfl, rfl, rfl, rfl, fun _ => rfl⟩
    dsimp only
    rw [ht]
  · exact ⟨fun _ => false, ht, rfl, rfl, rfl, rfl, rfl, fun _ => rfl⟩

theorem drop_frame (h : Hold) (b : Bool) : (h.drop b).tick = h.tick ∧ (h.drop b).ticks = h.ticks ∧ (h.drop b).qHold = h.qHold ∧
    (h.drop b).haveCmdGains = h.haveCmdGains ∧ (h.drop b).cmdKp = h.cmdKp ∧ (h.drop b).cmdKd = h.cmdKd ∧
    (h.drop b).holding = (h.holding && !b) := by
  cases b
  · exact ⟨rfl, rfl, rfl, rfl, rfl, rfl, (Bool.and_true _).symm⟩
  · exact ⟨rfl, rfl, rfl, rfl, rfl, rfl, (Bool.and_false _).symm⟩

theorem front_inv (hi : HoldInv k s) (hpc : s.loop.pc = .front) (sh : Shared) (p : Published) (e : HoldEnv) :
    HoldInv k { loop := (s.loop.front k.cfg sh p e.env).1, hold := frontHold k.cfg s.loop s.hold sh p e } := by
  have hempty := hi.between hpc
  unfold frontHold
  split_ifs with hread
  · -- a failed read: the tick ends before anything of it counts
    unfold front
    rw [if_pos hread]
    exact ⟨fun _ => hempty, hi.interval, fun _ => .inr (.inr rfl), hi.gains, ⟨hi.ahead.1, hi.ahead.2.1, hi.ahead.2.2.1, .inr (congrArg Tick.tripped hempty)⟩, hi.holds⟩
  obtain ⟨hplant, hgen, hleft⟩ := front_plant k.cfg s.loop sh p e.env (Bool.eq_true_of_not_eq_false hread)
  generalize (s.loop.front k.cfg sh p e.env).1 = loop at hplant hgen hleft ⊢
  obtain ⟨added, htick, hholding, hticks, hhave, hkp, hkd, hq⟩ := mask_spec { s.hold with tick := { q := e.q } } e rfl
  generalize Hold.mask { s.hold with tick := { q := e.q } } e = h at htick hholding hticks hhave hkp hkd hq ⊢
  dsimp only at hholding hticks hhave hkp hkd hq ⊢
  generalize confirms _ p sh.fault = confirmed
  generalize cancels _ p = cancelled
  generalize underflows _ _ = underflowed
  rw [drop_drop, drop_drop]
  obtain ⟨htick', hlog, hpose', hhave', hkp', hkd', hflag⟩ := drop_frame h (confirmed || (cancelled || underflowed))
  generalize h.drop (confirmed || (cancelled || underflowed)) = h' at htick' hlog hpose' hhave' hkp' hkd' hflag ⊢
  rw [htick] at htick'
  rw [hticks] at hlog
  rw [hholding] at hflag
  refine ⟨fun hf => absurd hf hleft, fun hold => ?_, fun hold => ?_, fun hg => ?_, ?_, ?_⟩
  · have hold : h'.holding = true := hold
    rw [hflag] at hold
    obtain ⟨hs, hno⟩ := Bool.and_eq_true_iff.mp hold
    obtain ⟨-, p', c, m, hsplit, hspans, hpose⟩ := hi.interval hs
    refine ⟨?_, p', c, m, hlog.trans hsplit, hspans, fun j hj => ?_⟩
    · dsimp only
      rw [htick']
      cases confirmed <;> cases cancelled <;> cases underflowed <;> first | rfl | exact Bool.noConfusion hno
    · have hbase := hpose j hj
      rw [hempty] at hbase
      dsimp only
      rw [htick', hpose', hq j, hbase]
      rfl
  · have hold : h'.holding = false := hold
    show Tick.restarts { h'.tick with confirmed := confirmed, cancelled := cancelled, underflowed := underflowed } = true ∨ _
    rw [htick', hplant]
    dsimp only
    rw [hlog]
    rw [hflag] at hold
    cases hs : s.hold.holding with
    | false =>
      rcases hi.dropped hs with hr | hrest
      · rw [hempty] at hr
        exact Bool.noConfusion hr
      · exact .inr hrest
    | true =>
      left
      rw [hs] at hold
      cases confirmed <;> cases cancelled <;> cases underflowed <;> first | rfl | exact Bool.noConfusion hold
  · have hg : h'.haveCmdGains = true := hg
    rw [hhave', hhave] at hg
    show Given anyTick h'.ticks loop.seenGen h'.cmdKp h'.cmdKd
    rw [hlog, hgen, hkp', hkp, hkd', hkd]
    exact hi.gains hg
  · show h'.tick.taken = none ∧ h'.tick.expired = false ∧ h'.tick.edge = false ∧ (_ ∨ h'.tick.tripped = false)
    rw [htick']
    exact ⟨rfl, rfl, rfl, .inr rfl⟩
  · show Justified _ h'.ticks
    rw [hlog]
    exact hi.holds

/-! ## the peers -/

/-- the restarts of a tick with one more event -/
theorem restarts_trip (t : Tick) (tripped running : Bool) (ht : t.tripped = false) :
    Tick.restarts { t with tripped := tripped, running := running } = (t.restarts || (tripped && running)) := by
  unfold Tick.restarts
  rw [ht]
  cases t.edge <;> cases t.cancelled <;> cases t.confirmed <;> cases t.underflowed <;> cases t.expired <;>
    cases tripped <;> cases running <;> cases t.taken <;> rfl

/-- parts of the tick that the hold does not see -/
theorem HoldInv.aside (hi : HoldInv k s) (hpc : s.loop.pc ≠ .servo) {loop : RtLoop} (hpc' : loop.pc ≠ .front)
    (hplant : loop.plantOk = s.loop.plantOk) (hgen : loop.seenGen = s.loop.seenGen) : HoldInv k { s with loop := loop } := by
  refine ⟨fun hf => absurd hf hpc', hi.interval, ?_, ?_, ?_, hi.holds⟩
  · show s.hold.holding = false → _ ∨ _ ∨ loop.plantOk = false
    rw [hplant]
    exact hi.dropped
  · show s.hold.haveCmdGains = true → Given _ _ loop.seenGen _ _
    rw [hgen]
    exact hi.gains
  · exact ⟨hi.ahead.1, hi.ahead.2.1, hi.ahead.2.2.1, .inr (hi.ahead.2.2.2.resolve_left hpc)⟩

theorem peers_inv (hi : HoldInv k s) (hpc : s.loop.pc = .peers) (p : Published) (e : HoldEnv) {loop : RtLoop}
    (hpc' : loop.pc = .servo) (hplant : loop.plantOk = s.loop.plantOk) (hgen : loop.seenGen = s.loop.seenGen) :
    HoldInv k { loop := loop, hold := peersHold k.cfg s.loop s.hold p e } := by
  have htripped : s.hold.tick.tripped = false := hi.ahead.2.2.2.resolve_left (by rw [hpc]; exact RtPc.noConfusion)
  unfold peersHold
  dsimp only
  generalize s.loop.trips k.cfg p.groupCommitted e.env = tripped
  generalize (s.loop.reference.info.status == ReferenceStatus.running) = running
  obtain ⟨htick, hlog, hpose, hhave, hkp, hkd, hflag⟩ := drop_frame s.hold (tripped && running)
  generalize s.hold.drop (tripped && running) = h' at htick hlog hpose hhave hkp hkd hflag ⊢
  have hrestarts : Tick.restarts { h'.tick with tripped := tripped, running := running } =
      (s.hold.tick.restarts || (tripped && running)) := by
    rw [htick]
    exact restarts_trip s.hold.tick tripped running htripped
  refine ⟨fun hf => ?_, fun hold => ?_, fun hold => ?_, fun hg => ?_, ?_, ?_⟩
  · have hf : loop.pc = .front := hf
    rw [hpc'] at hf
    exact RtPc.noConfusion hf
  · have hold : h'.holding = true := hold
    rw [hflag] at hold
    obtain ⟨hs, hno⟩ := Bool.and_eq_true_iff.mp hold
    obtain ⟨hquiet, p', c, m, hsplit, hspans, hbase⟩ := hi.interval hs
    refine ⟨?_, p', c, m, hlog.trans hsplit, hspans, fun j hj => ?_⟩
    · rw [hrestarts, hquiet]
      cases tripped <;> cases running <;> first | rfl | exact Bool.noConfusion hno
    · dsimp only
      rw [hpose, htick]
      exact hbase j hj
  · have hold : h'.holding = false := hold
    show Tick.restarts { h'.tick with tripped := tripped, running := running } = true ∨ ¬ EndsHeld h'.ticks ∨ loop.plantOk = false
    rw [hrestarts, hlog, hplant]
    rw [hflag] at hold
    cases hs : s.hold.holding with
    | false => exact (hi.dropped hs).imp_left fun hr => Bool.or_eq_true_iff.mpr (.inl hr)
    | true =>
      rw [hs, Bool.true_and, Bool.not_eq_false'] at hold
      exact .inl (Bool.or_eq_true_iff.mpr (.inr hold))
  · have hg : h'.haveCmdGains = true := hg
    rw [hhave] at hg
    show Given anyTick h'.ticks loop.seenGen h'.cmdKp h'.cmdKd
    rw [hlog, hgen, hkp, hkd]
    exact hi.gains hg
  · show h'.tick.taken = none ∧ h'.tick.expired = false ∧ h'.tick.edge = false ∧ _
    rw [htick]
    exact ⟨hi.ahead.1, hi.ahead.2.1, hi.ahead.2.2.1, .inl hpc'⟩
  · show Justified _ h'.ticks
    rw [hlog]
    exact hi.holds

/-! ## the ladder -/

/-- what is known where the ladder comes to hold -/
structure AtHold (k : HoldConfig) (h : Hold) : Prop where
  interval : h.holding = true → h.tick.restarts = false ∧ Interval k.cfg.n h.ticks h.tick h.qHold
  dropped : h.holding = false → h.tick.restarts = true ∨ ¬ EndsHeld h.ticks
  gains : h.haveCmdGains = true → Given anyTick h.ticks h.tick.gen h.cmdKp h.cmdKd ∨
    ∃ w, h.tick.taken = some w ∧ h.cmdKp = w.kp ∧ h.cmdKd = w.kd

/-- the tick that holds, as the history has it -/
def Hold.heldTick (h : Hold) (k : HoldConfig) : Tick := { h.tick with outcome := .held, selected := (h.hold k).selected }

/-- **Where the ladder holds, it holds still**, and the interval goes on. -/
theorem hold_spec (ha : AtHold k h) : HoldsStill k Tick.restarts anyTick h.ticks (h.heldTick k) ∧
    Interval k.cfg.n (h.ticks ++ [h.heldTick k]) {} (h.hold k).qHold := by
  have hadded : (h.heldTick k).added = h.tick.added := rfl
  have hq : (h.heldTick k).q = h.tick.q := rfl
  have hrestarts : (h.heldTick k).restarts = h.tick.restarts := rfl
  -- the interval, this tick included
  obtain ⟨p, c, m, hsplit, hspans, hpose⟩ : ∃ p c m, h.ticks ++ [h.heldTick k] = p ++ c :: m ∧ Spans Tick.restarts p c m ∧
      ∀ j < k.cfg.n, (h.hold k).qHold j = captured c m j := by
    cases hh : h.holding with
    | true =>
      obtain ⟨hquiet, p, c, m, hsplit, hspans, hbase⟩ := ha.interval hh
      refine ⟨p, c, m ++ [h.heldTick k], by rw [hsplit, List.append_assoc]; rfl, ⟨?_, ?_, hspans.starts⟩, fun j hj => ?_⟩
      · intro t ht
        rw [← List.cons_append] at ht
        rcases List.mem_append.mp ht with ht | ht
        · exact hspans.held t ht
        · rw [List.mem_singleton.mp ht]
          rfl
      · intro t ht
        rcases List.mem_append.mp ht with ht | ht
        · exact hspans.quiet t ht
        · rw [List.mem_singleton.mp ht, hrestarts]
          exact hquiet
      · rw [captured_snoc, hadded, hq, ← hbase j hj]
        unfold Hold.hold
        rw [hh]
        rfl
    | false =>
      refine ⟨h.ticks, h.heldTick k, [], rfl, ⟨?_, fun t ht => absurd ht List.not_mem_nil, ha.dropped hh⟩, fun j hj => ?_⟩
      · intro t ht
        rw [List.mem_singleton.mp ht]
        rfl
      · unfold Hold.hold
        rw [hh]
        show (if j < k.cfg.n then h.tick.q j else h.qHold j) = h.tick.q j
        rw [if_pos hj]
  refine ⟨⟨fun j => ⟨?_, ?_⟩, ?_, p, c, m, hsplit, hspans, fun j hj => ?_⟩, p, c, m, hsplit, hspans, fun j hj => ?_⟩
  · exact ite_self _
  · exact ite_self _
  · refine ⟨_, _, rfl, rfl, ?_⟩
    cases hg : h.haveCmdGains with
    | false => exact .inl ⟨rfl, rfl⟩
    | true =>
      right
      rcases ha.gains hg with hgiven | ⟨w, hw, hkp, hkd⟩
      · exact given_snoc hgiven _
      · exact ⟨h.heldTick k, List.mem_append_right _ (List.mem_singleton.mpr rfl), rfl, rfl, w, hw, hkp, hkd⟩
  · rw [← hpose j hj]
    exact if_pos hj
  · rw [hpose j hj]
    rfl

/-- the tick ends without a hold -/
theorem finish_inv {h' : Hold} {loop : RtLoop} (hholds : Justified (Holds k Tick.restarts anyTick) h.ticks)
    (hticks : h'.ticks = h.ticks) (hnot : h'.tick.outcome ≠ .held) (hdropped : h'.holding = false)
    (hgains : h'.haveCmdGains = true → Given anyTick (h.ticks ++ [h'.tick]) loop.seenGen h'.cmdKp h'.cmdKd) :
    HoldInv k { loop := loop, hold := h'.finish } where
  between := fun _ => rfl
  interval := fun hh => Bool.noConfusion (hdropped.symm.trans hh)
  dropped := fun _ => by
    refine .inr (.inl ?_)
    rintro ⟨t, ht, hheld⟩
    have ht : (h'.ticks ++ [h'.tick]).getLast? = some t := ht
    rw [List.getLast?_concat] at ht
    rw [← Option.some.inj ht] at hheld
    exact hnot hheld
  gains := fun hg => by
    show Given anyTick (h'.ticks ++ [h'.tick]) loop.seenGen h'.cmdKp h'.cmdKd
    rw [hticks]
    exact hgains hg
  ahead := ⟨rfl, rfl, rfl, .inr rfl⟩
  holds := by
    show Justified _ (h'.ticks ++ [h'.tick])
    rw [hticks]
    exact hholds.snoc fun hheld => absurd hheld hnot

/-- the tick ends with a hold, or with the write that it failed -/
theorem finish_held {loop : RtLoop} (hholds : Justified (Holds k Tick.restarts anyTick) h.ticks) (ha : AtHold k h)
    (hgen : loop.seenGen = h.tick.gen) (wrote : Bool) (hplant : wrote = false → loop.plantOk = false) :
    HoldInv k { loop := loop, hold := (Hold.drop { h.hold k with tick := h.heldTick k } (!wrote)).finish } := by
  obtain ⟨hstill, hinterval⟩ := hold_spec ha
  have hticks : ∀ b, (Hold.drop { h.hold k with tick := h.heldTick k } b).finish.ticks = h.ticks ++ [h.heldTick k] := by
    intro b
    cases b <;> rfl
  refine ⟨fun _ => by cases wrote <;> rfl, fun hh => ?_, fun hh => .inr (.inr (hplant ?_)), fun hg => ?_,
    by cases wrote <;> exact ⟨rfl, rfl, rfl, .inr rfl⟩, ?_⟩
  · refine ⟨by cases wrote <;> rfl, ?_⟩
    cases wrote with
    | true => exact hinterval
    | false => exact Bool.noConfusion hh
  · cases wrote with
    | true => exact Bool.noConfusion hh
    | false => rfl
  · have hg' : h.haveCmdGains = true := by cases wrote <;> exact hg
    have hgiven : Given anyTick (h.ticks ++ [h.heldTick k]) h.tick.gen h.cmdKp h.cmdKd := by
      rcases ha.gains hg' with hgiven | ⟨w, hw, hkp, hkd⟩
      · exact given_snoc hgiven _
      · exact ⟨h.heldTick k, List.mem_append_right _ (List.mem_singleton.mpr rfl), rfl, rfl, w, hw, hkp, hkd⟩
    show Given anyTick (Hold.drop { h.hold k with tick := h.heldTick k } (!wrote)).finish.ticks loop.seenGen _ _
    rw [hticks, hgen]
    cases wrote <;> exact hgiven
  · show Justified _ (Hold.drop { h.hold k with tick := h.heldTick k } (!wrote)).finish.ticks
    rw [hticks]
    exact hholds.snoc fun _ => hstill

/-- **The authority ladder**: disarmed, no plant, track, or hold. -/
theorem ladder_inv {loop : RtLoop} {fresh : Bool} (hholds : Justified (Holds k Tick.restarts anyTick) h.ticks)
    (hinterval : h.holding = true → h.tick.restarts = false ∧ Interval k.cfg.n h.ticks h.tick h.qHold)
    (hdropped : h.holding = false → h.tick.restarts = true ∨ ¬ EndsHeld h.ticks ∨ r.plantOk = false)
    (hgains : h.haveCmdGains = true → Given anyTick h.ticks h.tick.gen h.cmdKp h.cmdKd) (hgen : loop.seenGen = h.tick.gen)
    (hplant : loop.plantOk = if r.pub.armed = false then r.plantOk else r.plantOk && e.env.finite && e.env.wrote) :
    HoldInv k { loop := loop, hold := (ladder k r h fresh e).finish } := by
  unfold ladder
  by_cases harmed : r.pub.armed = false
  · rw [if_pos harmed]
    exact finish_inv hholds rfl Outcome.noConfusion rfl fun hg => hgen ▸ given_snoc (hgains hg) _
  rw [if_neg harmed] at hplant ⊢
  by_cases hdown : (r.plantOk && e.env.finite) = false
  · rw [if_pos hdown]
    exact finish_inv hholds rfl Outcome.noConfusion rfl fun hg => hgen ▸ given_snoc (hgains hg) _
  rw [if_neg hdown]
  have hhealthy : (r.plantOk && e.env.finite) = true := Bool.eq_true_of_not_eq_false hdown
  have hplantOk : r.plantOk = true := (Bool.and_eq_true_iff.mp hhealthy).1
  have hwrote : e.env.wrote = false → loop.plantOk = false := fun hw => by rw [hplant, hw, Bool.and_false]
  have hat : AtHold k h := by
    refine ⟨hinterval, fun hh => ?_, fun hg => .inl (hgains hg)⟩
    rcases hdropped hh with hr | hr | hr
    · exact .inl hr
    · exact .inr hr
    · exact Bool.noConfusion (hplantOk.symm.trans hr)
  dsimp only
  generalize (!r.faulted && fresh) = track
  generalize (track && !e.env.lawOk && (r.authority.current.packet.version == Version.poseHold ||
    r.authority.current.packet.version == Version.cartesian)) = lawFailed
  generalize r.authority.current.packet.version = version
  cases track with
  | false => exact finish_held hholds hat hgen e.env.wrote hwrote
  | true =>
    cases lawFailed with
    | true =>
      -- the law of a fresh command failed: its gains are kept, and the pose is captured now
      have htaken : AtHold k (h.take k.cfg.n version e) := by
        refine ⟨fun hh => Bool.noConfusion hh, fun _ => .inl ?_, fun _ => .inr ⟨e.word, rfl, rfl, rfl⟩⟩
        unfold Tick.restarts Hold.take
        exact Bool.or_true _
      exact finish_held (h := h.take k.cfg.n version e) hholds htaken hgen e.env.wrote hwrote
    | false =>
      obtain ⟨htick, hlog, -, -, hkp, hkd, hflag⟩ := drop_frame (h.act k true false version e) (!e.env.wrote)
      refine finish_inv hholds hlog ?_ (hflag.trans (Bool.false_and _)) fun _ => ?_
      · rw [htick]
        exact Outcome.noConfusion
      · rw [htick, hkp, hkd, hgen]
        exact ⟨_, List.mem_append_right _ (List.mem_singleton.mpr rfl), rfl, rfl, e.word, rfl, rfl, rfl⟩

theorem servo_inv (hi : HoldInv k s) (sh : Shared) (session : ℕ) (e : HoldEnv) :
    HoldInv k { loop := (s.loop.servo k.cfg sh session e.env).1, hold := servoHold k s.loop s.hold session e } := by
  obtain ⟨hplant, hgen⟩ := retired_plant k.cfg s.loop (s.loop.referenceGap k.cfg)
  obtain ⟨htaken, hexpired, hedge, -⟩ := hi.ahead
  unfold servo servoHold
  dsimp only
  generalize (s.loop.observeCommand k.cfg).retireExpired k.cfg (s.loop.referenceGap k.cfg) = retired at hplant hgen ⊢
  generalize (s.loop.observeCommand k.cfg).expired k.cfg (s.loop.referenceGap k.cfg) = expired
  obtain ⟨hgen', hplant'⟩ := actuate_plant k.cfg retired.armEdge sh e.env (retired.fresh k.cfg session)
  have hedgePlant : (retired.pub.armGen != retired.seenGen) = false → retired.armEdge = retired := by
    intro hsame
    unfold armEdge
    rw [if_neg]
    exact not_not_intro (bne_eq_false_iff_eq.mp hsame)
  obtain ⟨htick, hlog, hpose, hhave, hkp, hkd, hflag⟩ := drop_frame s.hold expired
  generalize s.hold.drop expired = h at htick hlog hpose hhave hkp hkd hflag ⊢
  have hholds : Justified (Holds k Tick.restarts anyTick) h.ticks := by
    rw [hlog]
    exact hi.holds
  generalize hb : (retired.pub.armGen != retired.seenGen) = edge at hedgePlant ⊢
  cases edge with
  | true =>
    -- a new generation: nothing is held, and no gains are kept
    refine ladder_inv hholds (fun hh => Bool.noConfusion hh) (fun _ => .inl ?_) (fun hg => Bool.noConfusion hg) hgen' hplant'
    unfold Tick.restarts
    rw [Bool.true_or, Bool.true_or, Bool.true_or, Bool.true_or, Bool.true_or, Bool.true_or]
  | false =>
    have hsame := hedgePlant rfl
    rw [hsame] at hgen' hplant' ⊢
    have hrestarts : Tick.restarts { h.tick with expired := expired, edge := false, gen := retired.seenGen } =
        (s.hold.tick.restarts || expired) := by
      rw [htick]
      unfold Tick.restarts
      rw [hexpired, hedge, htaken]
      cases expired <;> cases s.hold.tick.cancelled <;> cases s.hold.tick.confirmed <;> cases s.hold.tick.underflowed <;>
        cases s.hold.tick.tripped <;> cases s.hold.tick.running <;> rfl
    refine ladder_inv hholds (fun hh => ?_) (fun hh => ?_) (fun hg => ?_) hgen' hplant'
    · have hh : h.holding = true := hh
      rw [hflag] at hh
      obtain ⟨hs, hno⟩ := Bool.and_eq_true_iff.mp hh
      obtain ⟨hquiet, p, c, m, hsplit, hspans, hbase⟩ := hi.interval hs
      refine ⟨?_, p, c, m, hlog.trans hsplit, hspans, fun j hj => ?_⟩
      · refine hrestarts.trans ?_
        rw [hquiet]
        cases expired <;> first | rfl | exact Bool.noConfusion hno
      · show h.qHold j = if h.tick.added j then h.tick.q j else captured c m j
        rw [hpose, htick]
        exact hbase j hj
    · have hh : h.holding = false := hh
      show Tick.restarts { h.tick with expired := expired, edge := false, gen := retired.seenGen } = true ∨ ¬ EndsHeld h.ticks ∨
        retired.plantOk = false
      rw [hrestarts, hlog, hplant]
      rw [hflag] at hh
      cases hs : s.hold.holding with
      | false => exact (hi.dropped hs).imp_left fun hr => Bool.or_eq_true_iff.mpr (.inl hr)
      | true =>
        rw [hs, Bool.true_and, Bool.not_eq_false'] at hh
        exact .inl (Bool.or_eq_true_iff.mpr (.inr hh))
    · have hg : h.haveCmdGains = true := hg
      rw [hhave] at hg
      show Given anyTick h.ticks retired.seenGen h.cmdKp h.cmdKd
      rw [hlog, hgen, hkp, hkd]
      exact hi.gains hg

/-! ## every run -/

theorem stepHold_inv (hi : HoldInv k s) (e : HoldEvent) : HoldInv k (stepHold k s e) := by
  unfold stepHold State.holdOf RtLoop.step
  cases hpc : s.loop.pc with
  | front => exact front_inv hi hpc e.sh e.pub e.env
  | done =>
    obtain ⟨hplant, hgen⟩ := doneWrite_plant s.loop e.sh.slot e.pub.groupCommitted e.sh.slotBusy
    exact hi.aside (by rw [hpc]; exact RtPc.noConfusion) RtPc.noConfusion hplant hgen
  | mirror =>
    obtain ⟨hplant, hgen⟩ := faultMirror_plant s.loop e.sh
    exact hi.aside (by rw [hpc]; exact RtPc.noConfusion) RtPc.noConfusion hplant hgen
  | peers =>
    obtain ⟨hplant, hgen⟩ := peerCheck_plant k.cfg s.loop e.sh e.env.env e.pub.groupCommitted
    exact peers_inv hi hpc e.pub e.env rfl hplant hgen
  | servo => exact servo_inv hi e.sh e.pub.sessionId e.env

/-- **Every tick that holds, holds still**: at rest, with the configured gains or those of a command that was taken up in the same ARM
generation, at the pose measured when its interval began. -/
theorem hold_never_borrows (k : HoldConfig) (armGen mask : ℕ) (es : List HoldEvent) :
    Justified (Holds k Tick.restarts anyTick) (run (stepHold k) (State.boot armGen mask) es).hold.ticks :=
  (invariant (inv_boot armGen mask) (fun _ e _ hi => stepHold_inv hi e) (along_of_forall (fun _ _ => trivial) es)).holds

/-! ## a trip that finds no running reference -/

/-- the events that begin a new interval, with every trip of the group among them -/
def Tick.tripRestarts (t : Tick) : Bool :=
  t.edge || t.cancelled || t.confirmed || t.underflowed || t.expired || t.tripped

/-- the command was tracked -/
def Tick.tracks (t : Tick) : Bool := t.outcome == .tracked

def pairConfig : HoldConfig where
  cfg :=
    { n := 1, holdNs := 100000000, faultNs := 1000000000, supportsReference := false, groupEnabled := true, groupMember := 0
      groupMembers := 2, groupMaxAgeNs := 10, groupMinLeadNs := 0, jointOrderHash := 0, instanceId := "", modelId := "", capabilities := 0
      setupFailed := none, sha256 := fun _ => default }
  holdKp := .zero
  holdKd := .zero

/-- armed under generation 1, in a committed group or not yet -/
def armedIn (committed : Bool) : Published :=
  { sessionId := 1, claimOk := true, armed := true, armGen := 1, armStart := ⟨1, 0⟩, groupActive := committed, groupCommitted := committed
    groupId := 1, groupSession := 1, groupEpoch := 1 }

/-- a tick of the measured position `q` -/
def tickAt (q : F64) (committed : Bool) : List HoldEvent :=
  List.replicate (if committed then 5 else 2) { pub := armedIn committed, env := { q := fun _ => q } }

/-- the arm holds; then a peer of its group is found lost, and no reference runs -/
def trippedHold : List HoldEvent := tickAt .zero false ++ tickAt ⟨1#64⟩ true

/-- **A trip keeps the pose**: the interval goes on where the group trips without a running reference. -/
theorem trip_keeps_pose : ¬ ∀ k armGen mask es,
    Justified (Holds k Tick.tripRestarts Tick.tracks) (run (stepHold k) (State.boot armGen mask) es).hold.ticks := by
  intro hall
  have hheld := hall pairConfig 0 0 trippedHold
  have hticks : (run (stepHold pairConfig) (State.boot 0 0) trippedHold).hold.ticks.map
      (fun t => (t.outcome, t.tripped, t.q 0, t.selected.qDes 0)) =
        [(.held, false, .zero, .zero), (.held, true, ⟨1#64⟩, .zero)] := by
    decide +kernel
  obtain ⟨t, ts, hsplit, -, hrest⟩ := List.map_eq_cons_iff.mp hticks
  obtain ⟨t', ts', hsplit', ht', hnil⟩ := List.map_eq_cons_iff.mp hrest
  rw [hsplit, hsplit', List.map_eq_nil_iff.mp hnil] at hheld
  simp only [Prod.mk.injEq] at ht'
  obtain ⟨houtcome, htrip, hq, hdes⟩ := ht'
  obtain ⟨p, c, m, hspan, hspans, hpose⟩ := (hheld [t] t' [] rfl houtcome).pose
  -- the tick that trips is the last, so it is the first of its interval
  have hm : m = [] := by
    rcases List.eq_nil_or_concat m with hm | ⟨m', last, hm⟩
    · exact hm
    · have hlast : t' = last := by
        have := congrArg List.getLast? hspan
        rw [hm, List.concat_eq_append, ← List.cons_append, ← List.append_assoc, List.getLast?_concat, List.getLast?_concat] at this
        exact Option.some.inj this
      have hquiet := hspans.quiet last (by rw [hm, List.concat_eq_append]; exact List.mem_append_right _ (List.mem_singleton.mpr rfl))
      unfold Tick.tripRestarts at hquiet
      rw [← hlast, htrip, Bool.or_true] at hquiet
      exact Bool.noConfusion hquiet
  subst hm
  have hc : t' = c := by
    have := congrArg List.getLast? hspan
    rw [List.getLast?_concat, List.getLast?_concat] at this
    exact Option.some.inj this
  have hat := hpose 0 (by decide)
  rw [← hc, hdes] at hat
  have hat : F64.zero = t'.q 0 := hat
  rw [hq] at hat
  exact absurd hat (by decide)

end RtLoop

end ArmControl.Rt
