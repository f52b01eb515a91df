import ArmControl.Plants.SceneIsolation
import Mathlib.Data.Fintype.Basic

/-!
# What the deadmans of a world count (`scene_core.py`)

A pause is credited when it ends; the next tick adds all that was credited to the time of every actor's last command.

* `CoreEvent`         a command of an actor, a pause that has just ended, a tick;
* `pausedBetween`     the pauses that lie between two times;
* `Deadmen.Ok`        the invariant: what an actor is forgiven is the pauses since it wrote, and what was pooled when it wrote;
* `slice_deadmen`     exact, as long as the actor does not write between a pause and the next tick;
* `deadman_exact`     exactly when a deadman is right.
-/

set_option linter.unusedSectionVars false

namespace ArmControl.Plants.Scene

/-! ## pauses -/

/-- the length of the pauses that lie between two times -/
def pausedBetween (pauses : List (ℚ × ℚ)) (t₁ t₂ : ℚ) : ℚ :=
  ((pauses.filter fun p => t₁ ≤ p.1 ∧ p.2 ≤ t₂).map fun p => p.2 - p.1).sum

section
variable {pauses : List (ℚ × ℚ)} {t t₁ t₂ : ℚ}

theorem pausedBetween_snoc (p : ℚ × ℚ) (h : t₁ ≤ p.1) (h' : p.2 ≤ t₂) :
    pausedBetween (pauses ++ [p]) t₁ t₂ = pausedBetween pauses t₁ t₂ + (p.2 - p.1) := by
  have hin : [p].filter (fun p => decide (t₁ ≤ p.1 ∧ p.2 ≤ t₂)) = [p] :=
    List.filter_eq_self.mpr fun q hq => List.mem_singleton.mp hq ▸ decide_eq_true ⟨h, h'⟩
  unfold pausedBetween
  rw [List.filter_append, hin, List.map_append, List.sum_append, List.map_singleton, List.sum_singleton]

/-- pauses that are over count whole -/
theorem pausedBetween_later (h : ∀ p ∈ pauses, p.2 ≤ t) (ht : t ≤ t₂) : pausedBetween pauses t₁ t₂ = pausedBetween pauses t₁ t := by
  unfold pausedBetween
  congr 2
  refine List.filter_congr fun p hp => ?_
  rw [decide_eq_decide]
  exact and_congr_right fun _ => iff_of_true ((h p hp).trans ht) (h p hp)

/-- earlier pauses do not count -/
theorem pausedBetween_before (h : ∀ p ∈ pauses, p.1 ≤ p.2 ∧ p.2 ≤ t₁) : pausedBetween pauses t₁ t₂ = 0 := by
  unfold pausedBetween
  refine List.sum_eq_zero fun x hx => ?_
  obtain ⟨p, hp, rfl⟩ := List.mem_map.mp hx
  obtain ⟨hmem, hin⟩ := List.mem_filter.mp hp
  obtain ⟨hle, hend⟩ := h p hmem
  have hstart := (of_decide_eq_true hin).1
  linarith

end

/-! ## the events of a core -/

inductive CoreEvent {ι : Type*} (α κ : Type*) {n : ℕ} (w : World ι n) where
  | setSlice (arm : ι) (sub : Command α κ (w.slices arm).width) (now : ℚ)
  /-- the host was blocked for so long, up to now -/
  | creditStall (seconds now : ℚ)
  | tick (now : ℚ)

def CoreEvent.now {ι α κ : Type*} {n : ℕ} {w : World ι n} : CoreEvent α κ w → ℚ
  | .setSlice _ _ now => now
  | .creditStall _ now => now
  | .tick now => now

/-- a core, with the history that its deadmans are about -/
structure Deadmen (ι α κ π : Type*) (n : ℕ) where
  core : SceneCore ι α κ π n
  /-- the time of the last event -/
  clock : ℚ := 0
  /-- when each actor last wrote -/
  wrote : ι → Option ℚ := fun _ => none
  /-- the pauses credited, from and to -/
  pauses : List (ℚ × ℚ) := []
  /-- what was credited and awaited a tick when each actor last wrote -/
  pooled : ι → ℚ := fun _ => 0

section
variable {ι α κ π : Type*} {n : ℕ} [DecidableEq ι] [DecidableEq α] [Zero α] [NatCast α] {w : World ι n}

namespace Deadmen

def step (s : Deadmen ι α κ π n) : CoreEvent α κ w → Deadmen ι α κ π n
  | .setSlice arm sub now =>
    { s with
      core := s.core.setSlice w arm sub now
      clock := now
      wrote := Function.update s.wrote arm (some now)
      pooled := Function.update s.pooled arm s.core.stall }
  | .creditStall seconds now =>
    { s with core := s.core.creditStall seconds, clock := now, pauses := s.pauses ++ [(now - seconds, now)] }
  | .tick now => { s with core := s.core.tick w now, clock := now }

/-- times are positive and do not decrease, and a pause began after the last command -/
def InTime (s : Deadmen ι α κ π n) (e : CoreEvent α κ w) : Prop :=
  0 < e.now ∧ s.clock ≤ e.now ∧
    match e with
    | .creditStall seconds now => 0 ≤ seconds ∧ ∀ a, ∀ last ∈ s.wrote a, last ≤ now - seconds
    | _ => True

/-- the actor does not write while a pause awaits the next tick -/
def Prompt (a : ι) (s : Deadmen ι α κ π n) : CoreEvent α κ w → Prop
  | .setSlice arm _ _ => arm = a → s.core.stall = 0
  | _ => True

/-- the actor has written, and has been silent for longer than the timeout, not counting the pauses since -/
def Due (w : World ι n) (s : Deadmen ι α κ π n) (a : ι) (now : ℚ) : Prop :=
  ∃ last, s.wrote a = some last ∧ w.idleTimeout < now - last - pausedBetween s.pauses last now

/-- the tick zeroes torque, kp and kd of the slice when it is due, and leaves the slice alone otherwise -/
def Exact (w : World ι n) (s : Deadmen ι α κ π n) (a : ι) (now : ℚ) : Prop :=
  (s.Due w a now → (s.core.tick w now).command.vectors.read (w.slices a) = (s.core.command.vectors.read (w.slices a)).limp) ∧
  (¬ s.Due w a now → (s.core.tick w now).command.vectors.read (w.slices a) = s.core.command.vectors.read (w.slices a))

/-- a world as it is built -/
def init (state : Motor α n) : Deadmen ι α κ π n := { core := .init state }

/-! ## the invariant -/

structure Ok (s : Deadmen ι α κ π n) : Prop where
  silent : ∀ a, s.wrote a = none → s.core.lastCmdTime a = 0
  heard : ∀ a last, s.wrote a = some last → 0 < last ∧ last ≤ s.clock ∧ last ≤ s.core.lastCmdTime a ∧
    s.core.lastCmdTime a + s.core.stall = last + pausedBetween s.pauses last s.clock + s.pooled a
  pauses : ∀ p ∈ s.pauses, p.1 ≤ p.2 ∧ p.2 ≤ s.clock
  stall : 0 ≤ s.core.stall
  pooled : ∀ a, 0 ≤ s.pooled a

end Deadmen

theorem SceneCore.credit_time (c : SceneCore ι α κ π n) (h : 0 ≤ c.stall) (a : ι) :
    c.credit.lastCmdTime a = if 0 < c.lastCmdTime a then c.lastCmdTime a + c.stall else c.lastCmdTime a := by
  unfold SceneCore.credit
  split_ifs with hstall hheard
  · exact if_pos hheard
  · exact if_neg hheard
  · rw [le_antisymm (not_lt.mp hstall) h, add_zero]
  · rfl

theorem SceneCore.credit_stall (c : SceneCore ι α κ π n) (h : 0 ≤ c.stall) : c.credit.stall = 0 := by
  unfold SceneCore.credit
  split_ifs with hstall
  · rfl
  · exact le_antisymm (not_lt.mp hstall) h

theorem SceneCore.credit_command (c : SceneCore ι α κ π n) : c.credit.command = c.command := by
  unfold SceneCore.credit
  split_ifs <;> rfl

/-- what a tick does to the deadmans -/
theorem SceneCore.tick_times (c : SceneCore ι α κ π n) (now : ℚ) :
    (c.tick w now).lastCmdTime = c.credit.lastCmdTime ∧ (c.tick w now).stall = c.credit.stall :=
  ⟨(deadmans now w.actors c.credit).1, (deadmans now w.actors c.credit).2.1⟩

/-- what a tick does to a slice -/
theorem SceneCore.tick_read (c : SceneCore ι α κ π n) (now : ℚ) (a : ι) :
    (c.tick w now).command.vectors.read (w.slices a) =
      if expired w (c.credit.lastCmdTime a) now = true then (c.command.vectors.read (w.slices a)).limp
      else c.command.vectors.read (w.slices a) := by
  have h := (deadmans (w := w) now w.actors c.credit).2.2.1 a
  rw [SceneCore.credit_command] at h
  unfold SceneCore.tick
  rw [h]
  simp only [w.listed a, true_and]

namespace Deadmen

variable {s : Deadmen ι α κ π n} {a : ι} {now : ℚ}

theorem Ok.init (state : Motor α n) : (init state : Deadmen ι α κ π n).Ok :=
  ⟨fun _ _ => rfl, nofun, nofun, le_rfl, fun _ => le_rfl⟩

theorem Ok.setSlice (h : s.Ok) (arm : ι) (sub : Command α κ (w.slices arm).width) (hpos : 0 < now) (hle : s.clock ≤ now) :
    (s.step (.setSlice arm sub now)).Ok := by
  refine ⟨fun a (ha : Function.update s.wrote arm (some now) a = none) => ?_,
    fun a last (ha : Function.update s.wrote arm (some now) a = some last) => ?_,
    fun p hp => ⟨(h.pauses p hp).1, (h.pauses p hp).2.trans hle⟩, h.stall, fun a => ?_⟩
  · rcases eq_or_ne a arm with rfl | hne
    · rw [Function.update_self] at ha
      cases ha
    · show Function.update s.core.lastCmdTime arm now a = 0
      rw [Function.update_of_ne hne]
      rw [Function.update_of_ne hne] at ha
      exact h.silent a ha
  · show 0 < last ∧ last ≤ now ∧ last ≤ Function.update s.core.lastCmdTime arm now a ∧
      Function.update s.core.lastCmdTime arm now a + s.core.stall =
        last + pausedBetween s.pauses last now + Function.update s.pooled arm s.core.stall a
    rcases eq_or_ne a arm with rfl | hne
    · rw [Function.update_self] at ha
      obtain rfl := Option.some.inj ha
      rw [Function.update_self, Function.update_self, pausedBetween_before fun p hp => ⟨(h.pauses p hp).1, (h.pauses p hp).2.trans hle⟩,
        add_zero]
      exact ⟨hpos, le_rfl, le_rfl, rfl⟩
    · rw [Function.update_of_ne hne] at ha
      obtain ⟨hlast, hclock, hstamp, hsum⟩ := h.heard a last ha
      rw [Function.update_of_ne hne, Function.update_of_ne hne, pausedBetween_later (fun p hp => (h.pauses p hp).2) hle]
      exact ⟨hlast, hclock.trans hle, hstamp, hsum⟩
  · show 0 ≤ Function.update s.pooled arm s.core.stall a
    rcases eq_or_ne a arm with rfl | hne
    · rw [Function.update_self]
      exact h.stall
    · rw [Function.update_of_ne hne]
      exact h.pooled a

theorem Ok.creditStall (h : s.Ok) {seconds : ℚ} (hle : s.clock ≤ now) (hseconds : 0 ≤ seconds)
    (hbegan : ∀ a, ∀ last ∈ s.wrote a, last ≤ now - seconds) :
    (s.step (.creditStall seconds now : CoreEvent α κ w)).Ok := by
  have hstall : (s.core.creditStall seconds).stall = s.core.stall + seconds := by
    unfold SceneCore.creditStall
    split_ifs with hpos
    · rfl
    · rw [le_antisymm (not_lt.mp hpos) hseconds, add_zero]
  have htimes : (s.core.creditStall seconds).lastCmdTime = s.core.lastCmdTime := by
    unfold SceneCore.creditStall
    split_ifs <;> rfl
  refine ⟨fun a ha => ?_, fun a last ha => ?_, fun p hp => ?_, ?_, h.pooled⟩
  · show (s.core.creditStall seconds).lastCmdTime a = 0
    rw [htimes]
    exact h.silent a ha
  · obtain ⟨hlast, hclock, hstamp, hsum⟩ := h.heard a last ha
    show 0 < last ∧ last ≤ now ∧ last ≤ (s.core.creditStall seconds).lastCmdTime a ∧
      (s.core.creditStall seconds).lastCmdTime a + (s.core.creditStall seconds).stall =
        last + pausedBetween (s.pauses ++ [(now - seconds, now)]) last now + s.pooled a
    rw [htimes, hstall, pausedBetween_snoc (now - seconds, now) (hbegan a last ha) le_rfl,
      pausedBetween_later (fun p hp => (h.pauses p hp).2) hle]
    exact ⟨hlast, hclock.trans hle, hstamp, by linarith⟩
  · rcases List.mem_append.mp hp with hp | hp
    · exact ⟨(h.pauses p hp).1, (h.pauses p hp).2.trans hle⟩
    · obtain rfl := List.mem_singleton.mp hp
      exact ⟨sub_le_self now hseconds, le_rfl⟩
  · show 0 ≤ (s.core.creditStall seconds).stall
    rw [hstall]
    exact add_nonneg h.stall hseconds

theorem Ok.tick (h : s.Ok) (hle : s.clock ≤ now) : (s.step (.tick now : CoreEvent α κ w)).Ok := by
  obtain ⟨htimes, hstall⟩ := s.core.tick_times (w := w) now
  refine ⟨fun a ha => ?_, fun a last ha => ?_, fun p hp => ⟨(h.pauses p hp).1, (h.pauses p hp).2.trans hle⟩, ?_, h.pooled⟩
  · show (s.core.tick w now).lastCmdTime a = 0
    rw [htimes, s.core.credit_time h.stall, h.silent a ha, if_neg (lt_irrefl 0)]
  · obtain ⟨hlast, hclock, hstamp, hsum⟩ := h.heard a last ha
    show 0 < last ∧ last ≤ now ∧ last ≤ (s.core.tick w now).lastCmdTime a ∧
      (s.core.tick w now).lastCmdTime a + (s.core.tick w now).stall = last + pausedBetween s.pauses last now + s.pooled a
    rw [htimes, hstall, s.core.credit_time h.stall, s.core.credit_stall h.stall, if_pos (hlast.trans_le hstamp), add_zero,
      pausedBetween_later (fun p hp => (h.pauses p hp).2) hle]
    exact ⟨hlast, hclock.trans hle, le_add_of_le_of_nonneg hstamp h.stall, hsum⟩
  · show 0 ≤ (s.core.tick w now).stall
    rw [hstall, s.core.credit_stall h.stall]

theorem Ok.step (h : s.Ok) {e : CoreEvent α κ w} (he : s.InTime e) : (s.step e).Ok := by
  obtain ⟨hpos, hle, hpause⟩ := he
  cases e with
  | setSlice arm sub now => exact h.setSlice arm sub hpos hle
  | creditStall seconds now => exact h.creditStall hle hpause.1 hpause.2
  | tick now => exact h.tick hle

theorem Ok.run (state : Motor α n) {es : List (CoreEvent α κ w)}
    (h : Run.Along Deadmen.step InTime (Deadmen.init state : Deadmen ι α κ π n) es) :
    (Run.run Deadmen.step (Deadmen.init state : Deadmen ι α κ π n) es).Ok :=
  Run.invariant (Ok.init state) (fun _ _ he hs => hs.step he) h

/-! ## when a deadman expires -/

/-- the silence that the deadman of an actor sees is short of what was pooled when the actor wrote -/
theorem Ok.expired_iff (h : s.Ok) (hle : s.clock ≤ now) (a : ι) :
    expired w (s.core.credit.lastCmdTime a) now = true ↔
      ∃ last, s.wrote a = some last ∧ w.idleTimeout < now - last - pausedBetween s.pauses last now - s.pooled a := by
  unfold expired
  rw [Bool.and_eq_true_iff, decide_eq_true_eq, decide_eq_true_eq, s.core.credit_time h.stall]
  cases hw : s.wrote a with
  | none =>
    rw [h.silent a hw, if_neg (lt_irrefl 0)]
    exact iff_of_false (fun h => lt_irrefl 0 h.1) nofun
  | some last =>
    obtain ⟨hlast, -, hstamp, hsum⟩ := h.heard a last hw
    rw [if_pos (hlast.trans_le hstamp)]
    rw [← pausedBetween_later (fun p hp => (h.pauses p hp).2) hle] at hsum
    constructor
    · rintro ⟨-, hdue⟩
      exact ⟨last, rfl, by linarith⟩
    · rintro ⟨last', hlast', hdue⟩
      obtain rfl := Option.some.inj hlast'
      have hstall := h.stall
      exact ⟨by linarith, by linarith⟩

/-- nothing was pooled when the actor last wrote -/
def Fair (a : ι) (s : Deadmen ι α κ π n) : Prop := s.wrote a ≠ none → s.pooled a = 0

theorem Fair.step (h : Fair a s) {e : CoreEvent α κ w} (he : s.Prompt a e) : Fair a (s.step e) := by
  cases e with
  | setSlice arm sub now =>
    intro hwrote
    show Function.update s.pooled arm s.core.stall a = 0
    rcases eq_or_ne a arm with rfl | hne
    · rw [Function.update_self]
      exact he rfl
    · rw [Function.update_of_ne hne]
      exact h fun hnone => hwrote ((Function.update_of_ne hne ..).trans hnone)
  | creditStall seconds now => exact h
  | tick now => exact h

theorem Ok.exact (h : s.Ok) (hle : s.clock ≤ now) (hfair : Fair a s) : s.Exact w a now := by
  have hiff : expired w (s.core.credit.lastCmdTime a) now = true ↔ s.Due w a now := by
    rw [h.expired_iff hle]
    refine exists_congr fun last => and_congr_right fun hw => ?_
    rw [hfair (by rw [hw]; nofun), sub_zero]
  refine ⟨fun hdue => ?_, fun hno => ?_⟩
  · rw [s.core.tick_read, if_pos (hiff.mpr hdue)]
  · rw [s.core.tick_read, if_neg fun hexpired => hno (hiff.mp hexpired)]

/-- a deadman is wrong exactly while the silence has passed the timeout by no more than what was pooled -/
theorem deadman_exact (state : Motor α n) (a : ι) (es : List (CoreEvent α κ w)) (now : ℚ)
    (htime : Run.Along step InTime (init state : Deadmen ι α κ π n) (es ++ [.tick now])) :
    let s := Run.run step (init state : Deadmen ι α κ π n) es
    (expired w (s.core.credit.lastCmdTime a) now = true ↔ s.Due w a now) ↔
      ∀ last ∈ s.wrote a, ¬ (w.idleTimeout < now - last - pausedBetween s.pauses last now ∧
        now - last - pausedBetween s.pauses last now ≤ w.idleTimeout + s.pooled a) := by
  intro s
  have hok : s.Ok := Ok.run state htime.init
  have hle : s.clock ≤ now := htime.last.2.1
  rw [hok.expired_iff hle]
  cases hw : s.wrote a with
  | none => exact iff_of_true (iff_of_false nofun fun ⟨last, hlast, _⟩ => by cases hw.symm.trans hlast) nofun
  | some last =>
    have hpooled := hok.pooled a
    constructor
    · rintro hiff last' hlast' ⟨hdue, hshort⟩
      obtain rfl := Option.some.inj hlast'
      obtain ⟨last', hlast', hexpired⟩ := hiff.mpr ⟨_, hw, hdue⟩
      obtain rfl := Option.some.inj hlast'
      linarith
    · intro hno
      have hshort := hno last rfl
      constructor
      · rintro ⟨last', hlast', hexpired⟩
        obtain rfl := Option.some.inj hlast'
        exact ⟨_, hw, by linarith⟩
      · rintro ⟨last', hlast', hdue⟩
        obtain rfl := Option.some.inj (hw.symm.trans hlast')
        refine ⟨_, rfl, ?_⟩
        by_contra hle
        exact hshort ⟨hdue, by linarith⟩

/-- **The deadmans are exact** for an actor that does not write between a pause and the next tick. -/
theorem slice_deadmen (state : Motor α n) (a : ι) (es : List (CoreEvent α κ w)) (now : ℚ)
    (htime : Run.Along step InTime (init state : Deadmen ι α κ π n) (es ++ [.tick now]))
    (hprompt : Run.Along step (Prompt a) (init state : Deadmen ι α κ π n) es) :
    (Run.run step (init state : Deadmen ι α κ π n) es).Exact w a now := by
  have hfair : Fair a (Run.run step (init state : Deadmen ι α κ π n) es) :=
    Run.invariant (fun h => (h rfl).elim) (fun _ _ he hs => hs.step he) hprompt
  exact (Ok.run state htime.init).exact htime.last.2.1 hfair

instance [Fintype ι] (s : Deadmen ι α κ π n) : ∀ e : CoreEvent α κ w, Decidable (s.InTime e)
  | .setSlice _ _ now => inferInstanceAs (Decidable (0 < now ∧ s.clock ≤ now ∧ True))
  | .creditStall seconds now =>
    inferInstanceAs (Decidable (0 < now ∧ s.clock ≤ now ∧ 0 ≤ seconds ∧ ∀ a, ∀ last ∈ s.wrote a, last ≤ now - seconds))
  | .tick now => inferInstanceAs (Decidable (0 < now ∧ s.clock ≤ now ∧ True))

instance (a : ι) (s : Deadmen ι α κ π n) : ∀ e : CoreEvent α κ w, Decidable (s.Prompt a e)
  | .setSlice arm _ _ => inferInstanceAs (Decidable (arm = a → s.core.stall = 0))
  | .creditStall .. => inferInstanceAs (Decidable True)
  | .tick _ => inferInstanceAs (Decidable True)

end Deadmen

end

/-! ## a command after a pause -/

section
open Deadmen

/-- a pause between two commands, and a tick on each side of it -/
def pauseBetween : List (CoreEvent ℚ Unit pair) :=
  [.setSlice true (stiff none true) 1, .tick 1, .creditStall (35/100) (135/100), .tick (136/100), .setSlice true (stiff none true) (137/100)]

theorem slice_deadmen_pause : (Run.run step (init rest : Deadmen Bool ℚ Unit Unit 2) pauseBetween).Exact pair true 2 :=
  slice_deadmen rest true pauseBetween 2 (by decide +kernel) (by decide +kernel)

/-- the last command comes after the pause, and before the tick -/
def writtenFirst : List (CoreEvent ℚ Unit pair) :=
  [.setSlice true (stiff none true) 1, .tick 1, .creditStall (35/100) (135/100), .setSlice true (stiff none true) (136/100), .tick (136/100)]

/-- 0.2 s of silence after a pause of 0.35 s go unnoticed, with a timeout of 0.1 s -/
theorem pause_excused_twice : ¬ ∀ (a : Bool) (es : List (CoreEvent ℚ Unit pair)) (now : ℚ),
    Run.Along step InTime (init rest : Deadmen Bool ℚ Unit Unit 2) (es ++ [.tick now]) →
    (Run.run step (init rest : Deadmen Bool ℚ Unit Unit 2) es).Exact pair a now := by
  intro h
  have hexact := (h true writtenFirst (156/100) (by decide +kernel)).1
  have hdue : (Run.run step (init rest : Deadmen Bool ℚ Unit Unit 2) writtenFirst).Due pair true (156/100) :=
    ⟨136/100, by decide +kernel, by decide +kernel⟩
  have hgain := congrArg (fun v : Vectors ℚ _ => v.kp ⟨0, by decide⟩) (hexact hdue)
  revert hgain
  decide +kernel

end

end ArmControl.Plants.Scene
