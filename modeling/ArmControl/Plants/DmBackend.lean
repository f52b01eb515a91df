import ArmControl.Plants.DmNative
import ArmControl.Lib.Run

/-!
# The DM backend on its CAN bus (`DmBackend`, `backend_dm.cpp`)

The motors keep acting on their last frame, so every failure must end with their onboard PD disabled.  The socket is an oracle: `ok k`
says whether the `k`-th write of the run succeeds, and a read carries what the bus delivers.

* `Bus`                                        the motors of a spec: distinct ids, at most 16;
* `Sent`, `DmBackend.send8`                    an attempt to write a frame, and the log of all of them;
* `each`                                       a loop that a failure leaves;
* `drain`, `probeDrain`, `readTick`            what a read does before it fails or returns a state;
* `setActiveMask`, `write`, `writeCommand`, `stop`   the other calls;
* `DmBackend.call`                             one call, `none` while a read has not returned.
-/

namespace ArmControl.Plants.Dm

def tickNs : ℕ := 2000000
def silenceNs : ℕ := 50000000
def probeNs : ℕ := 100000000

abbrev Mask : Type := BitVec 32

/-- `mask & (1u << j)` -/
def has (mask : Mask) (j : ℕ) : Bool := mask.getLsbD j

/-- `1u << j` -/
def bit (j : ℕ) : Mask := BitVec.twoPow 32 j

/-- the motors that `parse_spec` accepts -/
structure Bus where
  motors : List BusMotor
  distinct : (motors.map fun m => m.id).Nodup
  most : motors.length ≤ 16

theorem parseMotors_distinct {d : Decimals} {items : List Text} {motors out : List Motor} (h : parseMotors d motors items = .ok out)
    (hd : (motors.map fun m => m.id).Nodup) : (out.map fun m => m.id).Nodup := by
  induction items generalizing motors with
  | nil =>
    obtain rfl := Except.ok.inj h
    exact hd
  | cons item items ih =>
    unfold parseMotors at h
    cases hm : parseMotor d item with
    | error e =>
      rw [hm] at h
      cases h
    | ok m =>
      rw [hm] at h
      change (if (motors.any fun o => o.id == m.id) = true then _ else parseMotors d (motors ++ [m]) items) = _ at h
      split_ifs at h with hdup
      refine ih h ?_
      rw [List.map_append, List.nodup_append]
      refine ⟨hd, List.nodup_cons.mpr ⟨List.not_mem_nil, List.nodup_nil⟩, ?_⟩
      intro a ha b hb hab
      obtain ⟨o, ho, rfl⟩ := List.mem_map.mp ha
      obtain rfl := List.mem_singleton.mp hb
      exact hdup (List.any_eq_true.mpr ⟨o, ho, beq_iff_eq.mpr hab⟩)

/-- **A spec that is accepted describes a bus**: the ids are distinct, and there are at most 16 motors. -/
theorem parseSpec_bus {d : Decimals} {spec iface : Text} {motors : List Motor} (h : parseSpec d spec = .ok (iface, motors)) :
    (motors.map fun m => m.id).Nodup ∧ motors.length ≤ 16 := by
  unfold parseSpec at h
  dsimp only at h
  split_ifs at h
  split at h
  · rename_i c rest heq
    cases hm : parseMotors d [] ((c :: rest).splitOn ',') with
    | error e =>
      rw [hm] at h
      cases h
    | ok out =>
      rw [hm] at h
      change (if (out.isEmpty || 16 < out.length) = true then _ else _) = _ at h
      split_ifs at h with hsize
      obtain ⟨-, rfl⟩ := Prod.mk.inj (Except.ok.inj h)
      rw [Bool.or_eq_true, not_or, decide_eq_true_eq, not_lt] at hsize
      exact ⟨parseMotors_distinct hm List.nodup_nil, hsize.2⟩
  · cases h

/-- what the frame is for -/
inductive Kind where
  | enable | disable | zeroGain | command
  deriving DecidableEq

/-- an attempt to write a frame -/
structure Sent where
  id : ℤ
  kind : Kind
  bytes : List ℕ
  ok : Bool

def enableFrame : List ℕ := [0xFF, 0xFF, 0xFF, 0xFF, 0xFF, 0xFF, 0xFF, 0xFC]
def disableFrame : List ℕ := [0xFF, 0xFF, 0xFF, 0xFF, 0xFF, 0xFF, 0xFF, 0xFD]

/-- `pack_mit(0, 0, 0, 0, 0, ...)` -/
def zeroFrame (l : DmLimits) : List ℕ := (packMit ⟨.fin 0, .fin 0, .fin 0, .fin 0, .fin 0⟩ l).getD []

/-- the latched fault -/
inductive DmFault where
  | send (id : ℤ)
  | recv
  | probeRecv
  | otherDriver (id : ℤ)
  | otherRobot (nibble : ℕ) (masterId : ℕ)
  | neverReplied (id : ℤ)
  | silent (id : ℤ) (ms : ℕ)
  | torqueOnly
  | jointCount
  | preflight (id : ℤ) (error : String)

/-- a frame that arrives: `whole` if its size is that of a CAN or CAN FD frame -/
structure Rx where
  whole : Bool
  errFlag : Bool := false
  /-- an extended id or a remote request -/
  otherFlags : Bool := false
  id : ℕ
  data : List UInt8
  stamp : ℕ

/-- what a drain finds queued, and whether `recv` then fails -/
structure Recv where
  frames : List Rx := []
  failed : Bool := false

/-- a round of a waiting loop: the clock it reads, and what it drains -/
structure Round where
  clock : ℕ
  recv : Recv

/-- what the world decides in a read -/
structure ReadEnv where
  now : ℕ
  probe : Recv := {}
  collect : List Round
  startup : List Round := []

structure PlantState where
  n : ℕ
  q : List Value
  dq : List Value
  tau : List Value
  tauRef : List Value

structure DmBackend where
  motors : List BusMotor
  lastTau : ℕ → Value := fun _ => .fin 0
  started : Bool := false
  enabledMask : Mask := 0
  wrote : Bool := false
  allSeen : Bool := false
  probeOpen : Bool := true
  probeUntilNs : ℕ := 0
  activeMask : Mask
  nextNs : ℕ
  fault : Option DmFault := none
  /-- every attempt to write a frame, in order -/
  log : List Sent := []

namespace DmBackend
variable (ok : ℕ → Bool)

def configured (n : ℕ) : Mask := if 16 ≤ n then 0xFFFF else bit n - 1

/-- the backend as it is opened on a bus, at the time `now` -/
def opened (bus : Bus) (activeMask : Mask) (now : ℕ) : DmBackend where
  motors := bus.motors
  activeMask := activeMask &&& configured bus.motors.length
  nextNs := now

def fail (s : DmBackend) (f : DmFault) : DmBackend := { s with fault := some f }

def send8 (s : DmBackend) (id : ℤ) (kind : Kind) (bytes : List ℕ) : DmBackend × Bool :=
  let sent := ok s.log.length
  let s := { s with log := s.log ++ [⟨id, kind, bytes, sent⟩] }
  (if sent then s else s.fail (.send id), sent)

/-- a loop that returns false at the first failure -/
def each {α : Type} (f : α → DmBackend → DmBackend × Bool) : List α → DmBackend → DmBackend × Bool
  | [], s => (s, true)
  | a :: l, s => let r := f a s; if r.2 then each f l r.1 else (r.1, false)

/-- the slots: each motor with its index -/
def slots (s : DmBackend) : List (BusMotor × ℕ) := s.motors.zipIdx

/-! ## stop -/

/-- the two frames of one motor, and whether every frame so far went out -/
def stopMotor (r : DmBackend × Bool) (m : BusMotor) : DmBackend × Bool :=
  let zero := r.1.send8 ok m.id .zeroGain (zeroFrame m.lim)
  let disable := zero.1.send8 ok m.id .disable disableFrame
  (disable.1, disable.2 && (zero.2 && r.2))

/-- `stop`: every frame is attempted, whatever fails -/
def stop (s : DmBackend) : DmBackend × Bool :=
  let r := s.motors.foldl (stopMotor ok) (s, true)
  ({ r.1 with lastTau := fun _ => .fin 0, enabledMask := 0 }, r.2)

def stopPreservingFault (s : DmBackend) : DmBackend := { (s.stop ok).1 with fault := s.fault }

/-! ## the mask -/

/-- `online_mask()` at the time `stamp` -/
def online (s : DmBackend) (stamp : ℕ) (j : ℕ) : Bool :=
  match s.motors[j]? with
  | none => false
  | some m => m.seen && decide (m.lastRxNs ≤ stamp) && decide (stamp - m.lastRxNs ≤ silenceNs)

/-- a motor that leaves the mask -/
def drop (removed : Mask) (slot : BusMotor × ℕ) (s : DmBackend) : DmBackend × Bool :=
  if has removed slot.2 then
    let zero := s.send8 ok slot.1.id .zeroGain (zeroFrame slot.1.lim)
    if !zero.2 then (zero.1, false)
    else
      let disable := zero.1.send8 ok slot.1.id .disable disableFrame
      if !disable.2 then (disable.1, false)
      else
        ({ disable.1 with
          lastTau := Function.update disable.1.lastTau slot.2 (.fin 0)
          enabledMask := disable.1.enabledMask &&& ~~~ bit slot.2 }, true)
  else (s, true)

def setActiveMask (s : DmBackend) (mask : Mask) (stamp : ℕ) : DmBackend × Bool :=
  if mask &&& ~~~ configured s.motors.length ≠ 0 ∨ ∃ j < 32, has mask j = true ∧ s.online stamp j = false then (s, false)
  else
    let r := each (drop ok (s.activeMask &&& ~~~ mask)) s.slots s
    if r.2 then ({ r.1 with activeMask := mask }, true) else r

/-! ## writes -/

def enableMotor (slot : BusMotor × ℕ) (s : DmBackend) : DmBackend × Bool :=
  if has s.activeMask slot.2 && !has s.enabledMask slot.2 then
    let r := s.send8 ok slot.1.id .enable enableFrame
    if r.2 then ({ r.1 with enabledMask := r.1.enabledMask ||| bit slot.2 }, true) else r
  else (s, true)

def enableAll (s : DmBackend) : DmBackend × Bool := each (enableMotor ok) s.slots s

/-- a frame that passed: its motor, the slot, the bytes and the predicted torque -/
structure Packed where
  motor : BusMotor
  slot : ℕ
  bytes : List ℕ
  torque : Value

/-- `pack_native_mit` on one slot.  No cast is undefined on limits that can be encoded (`packNativeMit_spec`). -/
def packed (s : DmBackend) (fields : ℕ → Command) (slew : Value) (slot : BusMotor × ℕ) : Except String (List ℕ × Value) :=
  (packNativeMit slot.1 (fields slot.2) (s.lastTau slot.2) slew).getD (.error "undefined cast")

/-- the whole batch, or the motor that refuses its field and why -/
def preflight (s : DmBackend) (fields : ℕ → Command) (slew : Value) : List (BusMotor × ℕ) → Except (ℤ × String) (List Packed)
  | [] => .ok []
  | slot :: rest =>
    if has s.activeMask slot.2 then
      match s.packed fields slew slot with
      | .error e => .error (slot.1.id, e)
      | .ok (bytes, torque) => (s.preflight fields slew rest).map (⟨slot.1, slot.2, bytes, torque⟩ :: ·)
    else s.preflight fields slew rest

def sendPacked (p : Packed) (s : DmBackend) : DmBackend × Bool := s.send8 ok p.motor.id .command p.bytes

/-- `predicted[j]`, zero for a slot that is not active -/
def predictions (batch : List Packed) (j : ℕ) : Value := ((batch.find? (·.slot == j)).map Packed.torque).getD (.fin 0)

def stopIfEnabled (s : DmBackend) : DmBackend := if s.enabledMask ≠ 0 then (s.stop ok).1 else s

def write (s : DmBackend) : DmBackend × Bool := ((s.stopIfEnabled ok).fail .torqueOnly, false)

def writeCommand (s : DmBackend) (n : ℕ) (fields : ℕ → Command) (slew : Value) : DmBackend × Bool :=
  if n ≠ s.motors.length then ((s.stopIfEnabled ok).fail .jointCount, false)
  else
    match s.preflight fields slew s.slots with
    | .error (id, e) => ((s.stopIfEnabled ok).fail (.preflight id e), false)
    | .ok batch =>
      let enabled := s.enableAll ok
      if !enabled.2 then (enabled.1.stopPreservingFault ok, false)
      else
        let sent := each (sendPacked ok) batch enabled.1
        if !sent.2 then (sent.1.stopPreservingFault ok, false)
        else ({ sent.1 with lastTau := fun j => if j < n then predictions batch j else sent.1.lastTau j, wrote := true }, true)

/-! ## reads -/

/-- the first motor with the id of the reply takes it -/
def take (nibble : ℤ) (f : Rx) : List BusMotor → List BusMotor
  | [] => []
  | m :: rest =>
    if m.id = nibble then
      match decodeMit f.data m.lim with
      | none => m :: rest
      | some r => { m with q := r.q, dq := r.dq, tau := r.tau, lastRxNs := f.stamp, seen := true } :: rest
    else m :: take nibble f rest

/-- the low nibble of the payload: the motor that replies -/
def nibble (f : Rx) : ℕ := (f.data.headD 0).toNat &&& 0x0F

def receive (s : DmBackend) (f : Rx) : DmBackend :=
  if !f.whole || f.errFlag || decide (f.data.length < 8) then s else { s with motors := take (nibble f) f s.motors }

def drain (s : DmBackend) (r : Recv) : DmBackend × Bool :=
  let s := r.frames.foldl receive s
  if r.failed then (s.fail .recv, false) else (s, true)

def ours (s : DmBackend) (id : ℤ) : Bool := s.motors.any fun m => m.id == id

/-- one frame on the probe, once this server has sent: its own frames come back to it -/
def probe (f : Rx) (s : DmBackend) : DmBackend × Bool :=
  let id := f.id &&& 0x7ff
  if !f.whole || f.errFlag || f.otherFlags || s.ours id || decide (f.data.length < 8) then (s, true)
  else if !(s.motors.any fun m => m.mst == (id : ℤ)) && s.ours (nibble f) then (s.fail (.otherRobot (nibble f) id), false)
  else (s, true)

def probeDrain (s : DmBackend) (r : Recv) : DmBackend × Bool :=
  let p := each probe r.frames s
  if !p.2 then p else if r.failed then (p.1.fail .probeRecv, false) else p

def elicit (m : BusMotor) (s : DmBackend) : DmBackend × Bool := s.send8 ok m.id .zeroGain (zeroFrame m.lim)

def elicitAll (s : DmBackend) : DmBackend × Bool := each (elicit ok) s.motors s

/-- feedback is collected until the deadline: the clock at its end, `none` while the deadline has not come -/
def collect : List Round → DmBackend → Option (DmBackend × Option ℕ)
  | [], _ => none
  | r :: rest, s =>
    let d := s.drain r.recv
    if !d.2 then some (d.1, none)
    else if s.nextNs ≤ r.clock then some (d.1, some r.clock)
    else collect rest d.1

/-- an active motor that has not replied yet, the last one -/
def quiet (s : DmBackend) : Option BusMotor := ((s.slots.filter fun slot => has s.activeMask slot.2 && !slot.1.seen).getLast?).map Prod.fst

/-- at the start-up every active motor must speak once -/
def awaitAll : List Round → ℕ → DmBackend → Option (DmBackend × Option ℕ)
  | rounds, now, s =>
    if s.allSeen then some (s, some now)
    else
      match s.quiet with
      | none => some ({ s with allSeen := true }, some now)
      | some m =>
        match rounds with
        | [] => none
        | r :: rest =>
          if (silenceNs : ℤ) < r.clock - m.lastRxNs then some (s.fail (.neverReplied m.id), none)
          else
            let d := s.drain r.recv
            if !d.2 then some (d.1, none) else awaitAll rest r.clock d.1

/-- the first active motor that has been silent too long -/
def silentMotor (s : DmBackend) (now : ℕ) : Option BusMotor :=
  (s.slots.find? fun slot => has s.activeMask slot.2 && decide ((silenceNs : ℤ) < now - slot.1.lastRxNs)).map Prod.fst

def state (s : DmBackend) : PlantState :=
  ⟨s.motors.length, s.motors.map (·.q), s.motors.map (·.dq), s.motors.map (·.tau), (List.range s.motors.length).map s.lastTau⟩

/-- the deadline of the tick, the start of the silence grace and of the probe -/
def begin_ (s : DmBackend) (now : ℕ) : DmBackend :=
  let s := { s with nextNs := if s.nextNs + tickNs < now then now else s.nextNs + tickNs }
  if s.started then s
  else { s with started := true, motors := s.motors.map fun m => { m with lastRxNs := now }, probeUntilNs := now + probeNs }

/-- the first moments are watched on the probe -/
def watch (s : DmBackend) (e : ReadEnv) : DmBackend × Bool :=
  if s.probeOpen then
    let p := s.probeDrain e.probe
    if !p.2 then p else ({ p.1 with probeOpen := !decide (p.1.probeUntilNs ≤ e.now) }, true)
  else (s, true)

/-- replies are solicited, unless a write did -/
def solicit (s : DmBackend) : DmBackend × Bool :=
  if s.wrote then ({ s with wrote := false }, true)
  else
    let r := s.elicitAll ok
    if r.2 then ({ r.1 with wrote := false }, true) else r

/-- the silence check, and the state that the read returns -/
def report (s : DmBackend) (now : ℕ) : DmBackend × Option PlantState :=
  match s.silentMotor now with
  | some m => (s.fail (.silent m.id ((now - m.lastRxNs) / 1000000)), none)
  | none => (s, some s.state)

/-- `read_tick`: the state, or nothing where it fails; `none` while it has not returned -/
def readTick (s : DmBackend) (e : ReadEnv) : Option (DmBackend × Option PlantState) :=
  let watched := (s.begin_ e.now).watch e
  if !watched.2 then some (watched.1, none)
  else
    let solicited := watched.1.solicit ok
    if !solicited.2 then some (solicited.1, none)
    else
      match collect e.collect solicited.1 with
      | none => none
      | some (s, none) => some (s, none)
      | some (s, some now) =>
        match awaitAll e.startup now s with
        | none => none
        | some (s, none) => some (s, none)
        | some (s, some now) => some (s.report now)

def read (s : DmBackend) (e : ReadEnv) : Option (DmBackend × Option PlantState) :=
  match s.readTick ok e with
  | none => none
  | some (s, some state) => some (s, some state)
  -- the onboard PD keeps its authority until it is disabled
  | some (s, none) => some (if s.enabledMask ≠ 0 then s.stopPreservingFault ok else s, none)

/-! ## calls -/

inductive Call where
  | read (e : ReadEnv)
  | writeCommand (n : ℕ) (fields : ℕ → Command) (slew : Value)
  | write
  | setActiveMask (mask : Mask) (stamp : ℕ)
  | stop

/-- one call and the result of it; `none` while a read has not returned -/
def call (s : DmBackend) : Call → Option (DmBackend × Bool)
  | .read e => (s.read ok e).map fun r => (r.1, r.2.isSome)
  | .writeCommand n fields slew => some (s.writeCommand ok n fields slew)
  | .write => some (s.write ok)
  | .setActiveMask mask stamp => some (s.setActiveMask ok mask stamp)
  | .stop => some (s.stop ok)

def step (s : DmBackend) (c : Call) : DmBackend := ((s.call ok c).map Prod.fst).getD s

end DmBackend
end ArmControl.Plants.Dm
