import ArmControl.Lib.Run
import Mathlib.Algebra.Order.Ring.Rat
import Mathlib.Data.Nat.Cast.Defs
import Mathlib.Data.Rat.Floor
import ArmControl.Lib.Numerals

/-!
# A simulated world that several actors share (`scene_core.py`)

One command vector drives the world.  Every actor owns a slice of it; the host's step writes its slice and steps the world, the step of a
co-host writes its slice and reads the state that the host's last step left.

* `Slice`, `Slice.assign`, `Slice.read`   `v[s: s + m] = sub` and `v[s: s + m]`;
* `Vectors`                               the five vectors of a command, `Vectors.limp` without effort and gains;
* `SceneCore`                             the command vector with its deadmans: `setSlice`, `zeroSlice`, `tick`;
* `SharedWorld`, `ScenePlant`             the world under its lock and one actor of it;
* `Sys.call`                              one `ScenePlant.step`.

A step call carries what the outside decides: the command, the time read inside the lock, and what `backend.step` returns.
-/

set_option linter.unusedSectionVars false

namespace ArmControl.Plants.Scene

/-! ## slices of a vector -/

/-- `arm_slices[arm]` of a vector of `n` entries -/
structure Slice (n : ℕ) where
  start : ℕ
  width : ℕ
  fits : start + width ≤ n

/-- two slices that share no entry -/
def Slice.Apart {n : ℕ} (s t : Slice n) : Prop := s.start + s.width ≤ t.start ∨ t.start + t.width ≤ s.start

section
variable {α : Type*} {n : ℕ}

/-- `v[s: s + m] = sub` -/
def Slice.assign (s : Slice n) (v : Fin n → α) (sub : Fin s.width → α) : Fin n → α := fun i =>
  if h : s.start ≤ i.val ∧ i.val < s.start + s.width then sub ⟨i.val - s.start, by omega⟩ else v i

/-- `v[s: s + m]` -/
def Slice.read (s : Slice n) (v : Fin n → α) : Fin s.width → α := fun j =>
  v ⟨s.start + j.val, Nat.lt_of_lt_of_le (Nat.add_lt_add_left j.isLt _) s.fits⟩

@[simp] theorem Slice.read_assign (s : Slice n) (v : Fin n → α) (sub : Fin s.width → α) : s.read (s.assign v sub) = sub := by
  funext j
  unfold Slice.read Slice.assign
  rw [dif_pos ⟨Nat.le_add_right _ _, Nat.add_lt_add_left j.isLt _⟩]
  exact congrArg sub (Fin.ext (Nat.add_sub_cancel_left _ _))

/-- an assignment leaves every slice apart from it alone -/
theorem Slice.read_assign_of_apart {s t : Slice n} (h : s.Apart t) (v : Fin n → α) (sub : Fin s.width → α) :
    t.read (s.assign v sub) = t.read v := by
  funext j
  unfold Slice.read Slice.assign
  rw [dif_neg]
  rintro ⟨hlo, hhi⟩
  have hj := j.isLt
  dsimp only at hlo hhi
  rcases h with h | h <;> omega

end

/-! ## the vectors of a command -/

/-- the five vectors of a command -/
@[ext] structure Vectors (α : Type*) (n : ℕ) where
  position : Fin n → α
  velocity : Fin n → α
  torque : Fin n → α
  kp : Fin n → α
  kd : Fin n → α

/-- one actor's command; `cartesian` is the Cartesian impedance law, where the command has one -/
structure Command (α κ : Type*) (n : ℕ) where
  vectors : Vectors α n
  cartesian : Option κ

/-- the command of the whole world -/
structure WorldCommand (α κ π : Type*) (n : ℕ) extends Command α κ n where
  poseHold : Option π

/-- `motor_state()`, and what `backend.step` returns -/
structure Motor (α : Type*) (n : ℕ) where
  position : Fin n → α
  velocity : Fin n → α

section
variable {α : Type*} {n : ℕ}

def Vectors.assign (s : Slice n) (v : Vectors α n) (sub : Vectors α s.width) : Vectors α n :=
  ⟨s.assign v.position sub.position, s.assign v.velocity sub.velocity, s.assign v.torque sub.torque, s.assign v.kp sub.kp,
    s.assign v.kd sub.kd⟩

def Vectors.read (s : Slice n) (v : Vectors α n) : Vectors α s.width :=
  ⟨s.read v.position, s.read v.velocity, s.read v.torque, s.read v.kp, s.read v.kd⟩

@[simp] theorem Vectors.read_assign (s : Slice n) (v : Vectors α n) (sub : Vectors α s.width) :
    (v.assign s sub).read s = sub := by
  unfold Vectors.read Vectors.assign
  simp only [Slice.read_assign]

theorem Vectors.read_assign_of_apart {s t : Slice n} (h : s.Apart t) (v : Vectors α n) (sub : Vectors α s.width) :
    (v.assign s sub).read t = v.read t := by
  unfold Vectors.read Vectors.assign
  simp only [Slice.read_assign_of_apart h]

variable [Zero α]

/-- no effort and no gains: torque, kp and kd are zero -/
def Vectors.limp (v : Vectors α n) : Vectors α n := { v with torque := fun _ => 0, kp := fun _ => 0, kd := fun _ => 0 }

@[simp] theorem Vectors.limp_limp (v : Vectors α n) : v.limp.limp = v.limp := rfl

/-- torque, kp and kd of a slice are zero -/
def Vectors.zero (s : Slice n) (v : Vectors α n) : Vectors α n :=
  { v with torque := s.assign v.torque fun _ => 0, kp := s.assign v.kp fun _ => 0, kd := s.assign v.kd fun _ => 0 }

@[simp] theorem Vectors.read_zero (s : Slice n) (v : Vectors α n) : (v.zero s).read s = (v.read s).limp := by
  unfold Vectors.read Vectors.zero Vectors.limp
  simp only [Slice.read_assign]

theorem Vectors.read_zero_of_apart {s t : Slice n} (h : s.Apart t) (v : Vectors α n) : (v.zero s).read t = v.read t := by
  unfold Vectors.read Vectors.zero
  simp only [Slice.read_assign_of_apart h]

/-- `any(np.any(command[k]) for k in ("kp", "kd", "torque"))` -/
def Vectors.drives [DecidableEq α] (v : Vectors α n) : Bool := decide (∃ i, v.kp i ≠ 0 ∨ v.kd i ≠ 0 ∨ v.torque i ≠ 0)

end

/-! ## the world -/

/-- the actors of a world over a vector of `n` entries, with their disjoint slices, and the deadman of each slice -/
structure World (ι : Type*) (n : ℕ) where
  slices : ι → Slice n
  apart : ∀ a b, a ≠ b → (slices a).Apart (slices b)
  /-- the actors as `arm_slices` lists them -/
  actors : List ι
  listed : ∀ a, a ∈ actors
  idleTimeout : ℚ
  idlePos : 0 < idleTimeout
  period : ℚ

/-- the command vector of one world and its deadmans -/
structure SceneCore (ι α κ π : Type*) (n : ℕ) where
  command : WorldCommand α κ π n
  /-- 0: no command of the actor has arrived -/
  lastCmdTime : ι → ℚ
  stall : ℚ

variable {ι α κ π : Type*} {n : ℕ} [DecidableEq ι] [DecidableEq α] [Zero α] [NatCast α] (w : World ι n)

/-- the spawn pose, held gently until real commands arrive -/
def spawnHold (state : Motor α n) : Vectors α n :=
  ⟨state.position, fun _ => 0, fun _ => 0, fun _ => 60, fun _ => 2⟩

def SceneCore.init (state : Motor α n) : SceneCore ι α κ π n := ⟨⟨⟨spawnHold state, none⟩, none⟩, fun _ => 0, 0⟩

def SceneCore.setSlice (c : SceneCore ι α κ π n) (arm : ι) (sub : Command α κ (w.slices arm).width) (now : ℚ) :
    SceneCore ι α κ π n :=
  { c with
    lastCmdTime := Function.update c.lastCmdTime arm now
    -- the Cartesian law is one field of the whole world: the last writer wins
    command := { c.command with vectors := c.command.vectors.assign (w.slices arm) sub.vectors, cartesian := sub.cartesian } }

def SceneCore.zeroSlice (c : SceneCore ι α κ π n) (arm : ι) : SceneCore ι α κ π n :=
  { c with command := { vectors := c.command.vectors.zero (w.slices arm), cartesian := none, poseHold := none } }

/-- the deadman of a slice whose last command came at `last` -/
def expired (last now : ℚ) : Bool := decide (0 < last) && decide (w.idleTimeout < now - last)

def SceneCore.creditStall (c : SceneCore ι α κ π n) (seconds : ℚ) : SceneCore ι α κ π n :=
  if 0 < seconds then { c with stall := c.stall + seconds } else c

/-- the time that the host was not listening is credited to every deadman -/
def SceneCore.credit (c : SceneCore ι α κ π n) : SceneCore ι α κ π n :=
  if 0 < c.stall then
    { c with lastCmdTime := fun a => if 0 < c.lastCmdTime a then c.lastCmdTime a + c.stall else c.lastCmdTime a, stall := 0 }
  else c

/-- the deadman of one slice -/
def SceneCore.deadman (now : ℚ) (c : SceneCore ι α κ π n) (arm : ι) : SceneCore ι α κ π n :=
  if expired w (c.lastCmdTime arm) now then c.zeroSlice w arm else c

/-- `tick` up to `backend.step(command)` -/
def SceneCore.tick (c : SceneCore ι α κ π n) (now : ℚ) : SceneCore ι α κ π n := w.actors.foldl (SceneCore.deadman w now) c.credit

/-- the world that the actors of one process share -/
structure SharedWorld (ι α κ π : Type*) (n : ℕ) where
  core : SceneCore ι α κ π n
  /-- the backend's state after the last step -/
  last : Option (Motor α n) := none
  hostSteps : ℕ := 0
  /-- `backend.motor_state()`: the world as loaded -/
  loaded : Motor α n

/-- one actor's adapter -/
structure ScenePlant where
  driven : Bool := false
  hostSeen : ℕ := 0
  unstepped : ℕ := 0

/-- `max(1, ceil(idle_timeout / period))` -/
def maxUnstepped : ℕ := max 1 ⌈w.idleTimeout / w.period⌉.toNat

def Motor.mine (m : Motor α n) (s : Slice n) : Motor α s.width := ⟨s.read m.position, s.read m.velocity⟩

/-- the system, with the history that the properties speak of -/
structure Sys (ι α κ π : Type*) {n : ℕ} (w : World ι n) where
  shared : SharedWorld ι α κ π n
  plants : ι → ScenePlant := fun _ => {}
  -- history
  /-- the time of the last step call -/
  clock : ℚ
  /-- the last command that each actor wrote, and when -/
  wrote : (a : ι) → Option (Command α κ (w.slices a).width × ℚ) := fun _ => none
  /-- what the backend was stepped with -/
  stepped : List (WorldCommand α κ π n) := []

variable {w} (host : ι)

/-- a world as it is built, at the time `t₀` -/
def Sys.init (state : Motor α n) (t₀ : ℚ) : Sys ι α κ π w := { shared := { core := .init state, loaded := state }, clock := t₀ }

/-- `set_slice` -/
def Sys.write (s : Sys ι α κ π w) (actor : ι) (command : Command α κ (w.slices actor).width) (now : ℚ) : Sys ι α κ π w :=
  { s with
    shared := { s.shared with core := s.shared.core.setSlice w actor command now }
    wrote := Function.update s.wrote actor (some (command, now)) }

/-- `tick`: `returned` is what `backend.step` returns, nothing if it raises -/
def Sys.tick (s : Sys ι α κ π w) (now : ℚ) (returned : Option (Motor α n)) : Sys ι α κ π w :=
  let core := s.shared.core.tick w now
  let s := { s with shared := { s.shared with core := core }, stepped := s.stepped ++ [core.command] }
  match returned with
  | none => s
  | some state => { s with shared := { s.shared with last := some state, hostSteps := s.shared.hostSteps + 1 } }

/-- the steps of a co-host since the host last stepped the world -/
def ScenePlant.count (p : ScenePlant) (hostSteps : ℕ) : ScenePlant :=
  if hostSteps ≠ p.hostSeen then { p with hostSeen := hostSteps, unstepped := 0 } else { p with unstepped := p.unstepped + 1 }

/-- what a step raises -/
inductive Failure where
  | valueError (text : String)
  | runtimeError (text : String)
  /-- what `backend.step` raised -/
  | backend

def lostHost (steps : ℕ) : Failure :=
  .runtimeError <| "the hosting actor has not stepped the world in " ++ toString steps ++ " of this actor's steps"

/-- `ScenePlant.step` of a co-host -/
def Sys.cohostStep (s : Sys ι α κ π w) (actor : ι) (command : Command α κ (w.slices actor).width) (now : ℚ) :
    Sys ι α κ π w × Except Failure (Motor α (w.slices actor).width) :=
  if command.cartesian.isSome then
    (s, .error (.valueError "a co-hosted actor takes joint commands only (the world's Cartesian law is the host's)"))
  else
    let plant := (s.plants actor).count s.shared.hostSteps
    let s := { s with plants := Function.update s.plants actor plant }
    if maxUnstepped w < plant.unstepped then (s, .error (lostHost plant.unstepped))
    else
      -- the release words before the first drive leave the spawn hold
      let s :=
        if !command.vectors.drives && !plant.driven then s
        else
          { s with plants := Function.update s.plants actor { plant with driven := true } }.write actor
            { command with cartesian := none } now
      (s, .ok ((s.shared.last.getD s.shared.loaded).mine (w.slices actor)))

/-- `ScenePlant.step` of the host -/
def Sys.hostStep (s : Sys ι α κ π w) (command : Command α κ (w.slices host).width) (now : ℚ) (returned : Option (Motor α n)) :
    Sys ι α κ π w × Except Failure (Motor α (w.slices host).width) :=
  let s := (s.write host command now).tick now returned
  match returned with
  | none => (s, .error .backend)
  | some state => (s, .ok (state.mine (w.slices host)))

/-- a call of `ScenePlant.step`, of the host or of another actor -/
inductive StepCall (α κ : Type*) (w : World ι n) (host : ι) where
  /-- `returned` is what `backend.step` returns, nothing if it raises -/
  | host (command : Command α κ (w.slices host).width) (now : ℚ) (returned : Option (Motor α n))
  | cohost (actor : ι) (other : actor ≠ host) (command : Command α κ (w.slices actor).width) (now : ℚ)

def StepCall.now : StepCall α κ w host → ℚ
  | .host _ now _ => now
  | .cohost _ _ _ now => now

/-- one call of `ScenePlant.step` -/
def Sys.call (s : Sys ι α κ π w) (e : StepCall α κ w host) : Sys ι α κ π w :=
  let s := { s with clock := e.now }
  match e with
  | .host command now returned => (s.hostStep host command now returned).1
  | .cohost actor _ command now => (s.cohostStep actor command now).1

end ArmControl.Plants.Scene
