import Mathlib.Algebra.Order.Ring.Rat
import ArmControl.Lib.Pauses
import ArmControl.Lib.Run

/-!
# The clock of a shared world (`scene_core.py`)

A scene change pauses the world, and the clock of the world leaves the pause out.  A change holds `lock`, a reading of the clock holds
`_clock_lock`; a step is one read or write of one of them, at the time that it carries.  Who holds a lock does not matter.

* `SharedClock.change`, `SharedClock.clock`   the next access of an `apply_scene` and of a `clock` call;
* `Change`                the times that a change reads, and when it stores what it read;
* `worldTime`             the time less every pause;
* `startLag`, `endLag`    how long a time that was read at the start, at the end of a change was not stored;
* `Changes.Ok`, `Ok`      the invariants of the changes and of the calls;
* `world_clock`           never back, and off by no more than the lags.
-/

namespace ArmControl.Plants.WorldClock

open Pauses

/-- `PAUSE_EXCUSE_MAX_S` -/
def pauseExcuseMax : ℚ := 5

theorem pauseExcuseMax_nonneg : 0 ≤ pauseExcuseMax := by
  unfold pauseExcuseMax
  norm_num

/-- `_pause`: the pauses that are over, and the start of the one in progress -/
structure PauseRecord where
  paused : ℚ
  started : Option ℚ

/-- `stalled` -/
def PauseRecord.stalled (r : PauseRecord) (now : ℚ) : ℚ :=
  match r.started with
  | none => 0
  | some started => min (max 0 (now - started)) pauseExcuseMax

/-- what `clock` makes of a time and a record -/
def PauseRecord.value (r : PauseRecord) (now : ℚ) : ℚ := now - r.paused - r.stalled now

/-- where an `apply_scene` is -/
inductive ChangePc where
  | idle
  | entered
  | read (paused : ℚ)
  | timed (paused started : ℚ)
  /-- inside `core.apply_scene`, for as long as it takes -/
  | changing (paused started : ℚ)
  /-- it has returned or raised, and the time is read again -/
  | ended (paused started finished : ℚ)

/-- where a `clock` is -/
inductive ClockPc where
  | idle
  | entered
  | timed (t₁ : ℚ)
  | read (t₁ t₂ : ℚ) (record : PauseRecord)

/-- a scene change: the times it reads at its start and its end, and when it stores them -/
structure Change where
  start : ℚ
  startStored : Option ℚ := none
  ended : Option ℚ := none
  endStored : Option ℚ := none

/-- a `clock` call: when it read the time and the record, and what it returned -/
structure ClockCall where
  t₁ : ℚ
  t₂ : ℚ
  result : ℚ

structure SharedClock where
  record : PauseRecord := ⟨0, none⟩
  /-- `_clock_last`, nothing for minus infinity -/
  clockLast : Option ℚ := none
  changer : ChangePc := .idle
  clocker : ClockPc := .idle
  -- history
  time : ℚ
  closed : List Change := []
  current : Option Change := none
  calls : List ClockCall := []

inductive Event where
  | change (now : ℚ)
  | clock (now : ℚ)

def Event.now : Event → ℚ
  | .change now => now
  | .clock now => now

namespace SharedClock

def change (s : SharedClock) (now : ℚ) : SharedClock :=
  match s.changer with
  | .idle => { s with time := now, changer := .entered }
  | .entered => { s with time := now, changer := .read s.record.paused }
  | .read paused => { s with time := now, changer := .timed paused now, current := some { start := now } }
  | .timed paused started =>
    { s with
      time := now
      changer := .changing paused started
      record := ⟨paused, some started⟩
      current := s.current.map fun c => { c with startStored := some now } }
  | .changing paused started =>
    { s with
      time := now
      changer := .ended paused started now
      current := s.current.map fun c => { c with ended := some now } }
  | .ended paused started finished =>
    { s with
      time := now
      changer := .idle
      record := ⟨paused + min (finished - started) pauseExcuseMax, none⟩
      closed := s.closed ++ (s.current.map fun c => { c with endStored := some now }).toList
      current := none }

/-- `max(_clock_last, value)` -/
def later (last : Option ℚ) (value : ℚ) : ℚ :=
  match last with
  | none => value
  | some last => max last value

def clock (s : SharedClock) (now : ℚ) : SharedClock :=
  match s.clocker with
  | .idle => { s with time := now, clocker := .entered }
  | .entered => { s with time := now, clocker := .timed now }
  | .timed t₁ => { s with time := now, clocker := .read t₁ now s.record }
  | .read t₁ t₂ record =>
    { s with
      time := now
      clocker := .idle
      clockLast := some (later s.clockLast (record.value t₁))
      calls := s.calls ++ [ClockCall.mk t₁ t₂ (later s.clockLast (record.value t₁))] }

def step (s : SharedClock) : Event → SharedClock
  | .change now => s.change now
  | .clock now => s.clock now

/-- all changes so far -/
def changes (s : SharedClock) : List Change := s.closed ++ s.current.toList

/-- monotonic time -/
def InTime (s : SharedClock) (e : Event) : Prop := s.time ≤ e.now

instance (s : SharedClock) (e : Event) : Decidable (s.InTime e) := inferInstanceAs (Decidable (s.time ≤ e.now))

end SharedClock

/-! ## the time of the world -/

def Change.pause (c : Change) : Pause ℚ := ⟨c.start, c.ended⟩

def pauses (cs : List Change) : List (Pause ℚ) := cs.map Change.pause

/-- the time less every pause -/
def worldTime (cs : List Change) (t : ℚ) : ℚ := t - excused pauseExcuseMax (pauses cs) t

/-- how long, up to a time, the start of a change was read and not stored -/
def Change.startLag (t : ℚ) (c : Change) : ℚ := max 0 (upTo t c.startStored - c.start)

/-- how long, up to a time, the end of a change was read and not stored -/
def Change.endLag (t : ℚ) (c : Change) : ℚ :=
  match c.ended with
  | none => 0
  | some ended => max 0 (upTo t c.endStored - ended)

def longest (f : Change → ℚ) (cs : List Change) : ℚ := cs.foldl (fun m c => max m (f c)) 0

def startLag (cs : List Change) (t : ℚ) : ℚ := longest (Change.startLag t) cs
def endLag (cs : List Change) (t : ℚ) : ℚ := longest (Change.endLag t) cs

section
variable {f g : Change → ℚ} {cs : List Change} {c c' : Change} {t t' now : ℚ}

theorem longest_snoc (f : Change → ℚ) (cs : List Change) (c : Change) : longest f (cs ++ [c]) = max (longest f cs) (f c) :=
  List.foldl_append

theorem longest_nonneg (f : Change → ℚ) (cs : List Change) : 0 ≤ longest f cs := by
  induction cs using List.reverseRecOn with
  | nil => exact le_rfl
  | append_singleton cs c ih =>
    rw [longest_snoc]
    exact le_max_of_le_left ih

theorem le_longest_last (f : Change → ℚ) (cs : List Change) (c : Change) : f c ≤ longest f (cs ++ [c]) := by
  rw [longest_snoc]
  exact le_max_right _ _

theorem longest_mono (h : ∀ c, f c ≤ g c) (cs : List Change) : longest f cs ≤ longest g cs := by
  induction cs using List.reverseRecOn with
  | nil => exact le_rfl
  | append_singleton cs c ih =>
    rw [longest_snoc, longest_snoc]
    exact max_le_max ih (h c)

theorem startLag_mono (h : t' ≤ t) (cs : List Change) : startLag cs t' ≤ startLag cs t :=
  longest_mono (fun c => max_le_max_left 0 (sub_le_sub_right (upTo_mono h c.startStored) c.start)) cs

/-! ## what is over does not change -/

/-- two histories that look alike up to a time -/
structure Same (t : ℚ) (cs cs' : List Change) : Prop where
  worldTime : worldTime cs t = worldTime cs' t
  startLag : startLag cs t = startLag cs' t
  endLag : endLag cs t = endLag cs' t

theorem Same.refl (t : ℚ) (cs : List Change) : Same t cs cs := ⟨rfl, rfl, rfl⟩

theorem excused_snoc (cs : List Change) (c : Change) (t : ℚ) :
    excused pauseExcuseMax (pauses (cs ++ [c])) t = excused pauseExcuseMax (pauses cs) t + excusedBy pauseExcuseMax t c.pause := by
  unfold pauses
  rw [List.map_append, excused_append]
  exact congrArg _ (add_zero _)

/-- a change that starts later -/
theorem Same.started (h : t ≤ now) (cs : List Change) : Same t (cs ++ [{ start := now }]) cs := by
  have hlag : Change.startLag t { start := now } = 0 := max_eq_left (sub_nonpos.mpr h)
  refine ⟨?_, ?_, ?_⟩
  · unfold WorldClock.worldTime
    rw [excused_snoc, excusedBy_before pauseExcuseMax_nonneg (fun e (he : e ∈ none) => by cases he) h, add_zero]
  · unfold WorldClock.startLag
    rw [longest_snoc, hlag, max_eq_left (longest_nonneg _ cs)]
  · exact (longest_snoc _ cs _).trans (max_eq_left (longest_nonneg _ cs))

/-- the last change, when nothing of it up to the time is new -/
theorem Same.last (hpause : excusedBy pauseExcuseMax t c.pause = excusedBy pauseExcuseMax t c'.pause) (hstart : c.startLag t = c'.startLag t)
    (hend : c.endLag t = c'.endLag t) (cs : List Change) : Same t (cs ++ [c]) (cs ++ [c']) := by
  refine ⟨?_, ?_, ?_⟩
  · unfold WorldClock.worldTime
    rw [excused_snoc, excused_snoc, hpause]
  · unfold WorldClock.startLag
    rw [longest_snoc, longest_snoc, hstart]
  · unfold WorldClock.endLag
    rw [longest_snoc, longest_snoc, hend]

/-- a time that lies ahead -/
theorem upTo_ahead (h : t ≤ now) : upTo t (some now) = upTo t none := min_eq_left h

theorem Same.startStored (h : t ≤ now) (cs : List Change) (start : ℚ) :
    Same t (cs ++ [{ start := start, startStored := some now }]) (cs ++ [{ start := start }]) := by
  refine .last ?_ ?_ ?_ cs
  · rfl
  · unfold Change.startLag
    rw [upTo_ahead h]
  · rfl

theorem Same.ended (h : t ≤ now) (cs : List Change) (start stored : ℚ) :
    Same t (cs ++ [{ start := start, startStored := some stored, ended := some now }]) (cs ++ [{ start := start, startStored := some stored }]) := by
  refine .last ?_ ?_ ?_ cs
  · unfold excusedBy Change.pause
    dsimp only
    rw [upTo_ahead h]
  · rfl
  · exact max_eq_left (sub_nonpos.mpr h)

theorem Same.endStored (h : t ≤ now) (cs : List Change) (start stored finished : ℚ) :
    Same t (cs ++ [{ start := start, startStored := some stored, ended := some finished, endStored := some now }])
      (cs ++ [{ start := start, startStored := some stored, ended := some finished }]) := by
  refine .last ?_ ?_ ?_ cs
  · rfl
  · rfl
  · unfold Change.endLag
    dsimp only
    rw [upTo_ahead h]

end

/-! ## the changes -/

namespace SharedClock

/-- the change that is in progress, by where its `apply_scene` is -/
def Progress (s : SharedClock) : Prop :=
  match s.changer with
  | .idle | .entered => s.current = none ∧ s.record.started = none
  | .read paused => s.current = none ∧ s.record.started = none ∧ paused = s.record.paused
  | .timed paused started => s.current = some { start := started } ∧ s.record.started = none ∧ paused = s.record.paused ∧ started ≤ s.time
  | .changing paused started =>
    ∃ stored, s.current = some { start := started, startStored := some stored } ∧ s.record = ⟨paused, some started⟩ ∧ started ≤ stored ∧
      stored ≤ s.time
  | .ended paused started finished =>
    ∃ stored, s.current = some { start := started, startStored := some stored, ended := some finished } ∧ s.record = ⟨paused, some started⟩ ∧
      started ≤ stored ∧ stored ≤ finished ∧ finished ≤ s.time

/-- the changes of a run -/
structure Changes (s : SharedClock) : Prop where
  progress : s.Progress
  paused : s.record.paused = excused pauseExcuseMax (pauses s.closed) s.time
  sequential : Sequential (pauses s.changes)
  closed : ∀ c ∈ s.closed, ∃ ended, c.ended = some ended ∧ c.start ≤ ended ∧ ended ≤ s.time ∧ ∀ c' ∈ s.current, ended ≤ c'.start

variable {s : SharedClock} {now t t₁ : ℚ}

theorem Changes.start (time : ℚ) : Changes { time := time } := by
  refine ⟨⟨rfl, rfl⟩, rfl, ⟨List.Pairwise.nil, ?_⟩, ?_⟩
  · intro p hp
    cases hp
  · intro c hc
    cases hc

/-- time goes on -/
theorem Changes.later (h : s.Changes) (hle : s.time ≤ now) : excused pauseExcuseMax (pauses s.closed) now = s.record.paused := by
  rw [h.paused]
  refine excused_settled (fun p hp => ?_) hle
  obtain ⟨c, hc, rfl⟩ := List.mem_map.mp hp
  obtain ⟨ended, hended, hforward, hdone, -⟩ := h.closed c hc
  exact ⟨ended, hended, hforward, hdone⟩

theorem pauses_snoc (cs : List Change) (c : Change) : pauses (cs ++ [c]) = pauses cs ++ [c.pause] := List.map_append

/-- an access that closes no change -/
theorem Changes.moved (h : s.Changes) {s' : SharedClock} (hle : s.time ≤ s'.time) (hclosed : s'.closed = s.closed)
    (hpaused : s'.record.paused = s.record.paused) (hcurrent : ∀ c' ∈ s'.current, ∀ c ∈ s.closed, ∀ ended ∈ c.ended, ended ≤ c'.start)
    (hprogress : s'.Progress) (hseq : Sequential (pauses s'.changes)) : s'.Changes := by
  refine ⟨hprogress, ?_, hseq, ?_⟩
  · rw [hpaused, hclosed]
    exact (h.later hle).symm
  · rw [hclosed]
    intro c hc
    obtain ⟨ended, hended, hforward, hdone, -⟩ := h.closed c hc
    exact ⟨ended, hended, hforward, hdone.trans hle, fun c' hc' => hcurrent c' hc' c hc ended hended⟩

/-- what is over ended before the change in progress -/
theorem Changes.before (h : s.Changes) {c c' : Change} (hc : c ∈ s.closed) (hc' : s.current = some c') {ended : ℚ} (hended : ended ∈ c.ended) :
    ended ≤ c'.start := by
  obtain ⟨ended', hended', -, -, hbefore⟩ := h.closed c hc
  obtain rfl := Option.some.inj (hended.symm.trans hended')
  exact hbefore c' hc'

theorem Changes.over (h : s.Changes) {c : Change} (hc : c ∈ s.closed) : ∃ ended, c.ended = some ended ∧ ended ≤ s.time := by
  obtain ⟨ended, hended, -, hdone, -⟩ := h.closed c hc
  exact ⟨ended, hended, hdone⟩

/-- the changes with the one in progress -/
theorem Changes.snoc (h : s.Changes) {d : Change} (hcurrent : ∀ c ∈ s.closed, ∀ ended ∈ c.ended, ended ≤ d.start)
    (hforward : ∀ ended ∈ d.ended, d.start ≤ ended) : Sequential (pauses (s.closed ++ [d])) := by
  have hleft : Sequential (pauses s.closed) := by
    have hseq := h.sequential
    unfold changes pauses at hseq
    rw [List.map_append] at hseq
    exact hseq.left
  rw [pauses_snoc]
  refine hleft.snoc (fun q hq => ?_) hforward
  obtain ⟨c, hc, rfl⟩ := List.mem_map.mp hq
  obtain ⟨ended, hended, -⟩ := h.over hc
  exact ⟨ended, hended, hcurrent c hc ended hended⟩

/-- **One access of an `apply_scene`** keeps the invariant, and nothing that is over changes. -/
theorem Changes.change (h : s.Changes) (hle : s.time ≤ now) :
    (s.change now).Changes ∧ ∀ t, t ≤ s.time → Same t (s.change now).changes s.changes := by
  have hprogress := h.progress
  unfold Progress at hprogress
  unfold SharedClock.change
  cases hc : s.changer with
  | idle =>
    rw [hc] at hprogress
    refine ⟨h.moved hle rfl rfl (fun c' hc' c hcl ended he => h.before hcl hc' he) hprogress h.sequential, fun t _ => .refl t _⟩
  | entered =>
    rw [hc] at hprogress
    refine ⟨h.moved hle rfl rfl (fun c' hc' c hcl ended he => h.before hcl hc' he) ⟨hprogress.1, hprogress.2, rfl⟩ h.sequential,
      fun t _ => .refl t _⟩
  | read paused =>
    rw [hc] at hprogress
    obtain ⟨hnone, hrecord, hread⟩ := hprogress
    have hnew : ∀ c ∈ s.closed, ∀ ended ∈ c.ended, ended ≤ now := by
      intro c hcl ended he
      obtain ⟨ended', hended', hdone⟩ := h.over hcl
      obtain rfl := Option.some.inj (he.symm.trans hended')
      exact hdone.trans hle
    refine ⟨h.moved hle rfl rfl (fun c' hc' c hcl ended he => ?_) ⟨rfl, hrecord, hread, le_rfl⟩ (h.snoc hnew fun ended (he : ended ∈ none) => by cases he),
      fun t ht => ?_⟩
    · obtain rfl := Option.some.inj hc'
      exact hnew c hcl ended he
    · unfold changes
      rw [hnone]
      show Same t (s.closed ++ [{ start := now }]) (s.closed ++ [])
      rw [List.append_nil]
      exact .started (ht.trans hle) s.closed
  | timed paused started =>
    rw [hc] at hprogress
    obtain ⟨hcurrent, hrecord, hread, hstarted⟩ := hprogress
    rw [hcurrent]
    refine ⟨h.moved hle rfl hread (fun c' hc' c hcl ended he => ?_) ⟨now, rfl, rfl, hstarted.trans hle, le_rfl⟩
      (h.snoc (d := { start := started, startStored := some now }) (fun c hcl ended he => h.before hcl hcurrent he) fun ended (he : ended ∈ none) => by cases he),
      fun t ht => ?_⟩
    · obtain rfl := Option.some.inj hc'
      exact h.before hcl hcurrent he
    · unfold changes
      rw [hcurrent]
      exact .startStored (ht.trans hle) s.closed started
  | changing paused started =>
    rw [hc] at hprogress
    obtain ⟨stored, hcurrent, hrecord, hstarted, hstored⟩ := hprogress
    rw [hcurrent]
    refine ⟨h.moved hle rfl rfl (fun c' hc' c hcl ended he => ?_) ⟨stored, rfl, hrecord, hstarted, hstored.trans hle, le_rfl⟩
      (h.snoc (d := { start := started, startStored := some stored, ended := some now })
        (fun c hcl ended he => h.before hcl hcurrent he) fun ended he => ?_), fun t ht => ?_⟩
    · obtain rfl := Option.some.inj hc'
      exact h.before hcl hcurrent he
    · obtain rfl := Option.some.inj he
      exact hstarted.trans (hstored.trans hle)
    · unfold changes
      rw [hcurrent]
      exact .ended (ht.trans hle) s.closed started stored
  | ended paused started finished =>
    rw [hc] at hprogress
    obtain ⟨stored, hcurrent, hrecord, hstarted, hstored, hfinished⟩ := hprogress
    rw [hcurrent]
    have hforward := hstarted.trans hstored
    have hpause : paused = s.record.paused := by rw [hrecord]
    refine ⟨⟨⟨rfl, rfl⟩, ?_, ?_, fun c hcl => ?_⟩, fun t ht => ?_⟩
    · show paused + min (finished - started) pauseExcuseMax = excused pauseExcuseMax (pauses (s.closed ++
        [{ start := started, startStored := some stored, ended := some finished, endStored := some now }])) now
      rw [excused_snoc, h.later hle, ← hpause]
      unfold excusedBy Change.pause
      dsimp only
      rw [if_pos (hforward.trans (hfinished.trans hle))]
      show _ = paused + min (min now finished - started) pauseExcuseMax
      rw [min_eq_right (hfinished.trans hle)]
    · have hseq := h.sequential
      unfold changes at hseq ⊢
      rw [hcurrent] at hseq
      show Sequential (pauses ((s.closed ++
        [{ start := started, startStored := some stored, ended := some finished, endStored := some now }]) ++ []))
      rw [List.append_nil, pauses_snoc]
      rw [Option.toList_some, pauses_snoc] at hseq
      exact hseq
    · rcases List.mem_append.mp hcl with hold | hlast
      · obtain ⟨ended, hended, hforward', hdone, -⟩ := h.closed c hold
        exact ⟨ended, hended, hforward', hdone.trans hle, fun c' hc' => by cases hc'⟩
      · obtain rfl := List.mem_singleton.mp hlast
        exact ⟨finished, rfl, hforward, hfinished.trans hle, fun c' hc' => by cases hc'⟩
    · unfold changes
      rw [hcurrent]
      show Same t ((s.closed ++ [{ start := started, startStored := some stored, ended := some finished, endStored := some now }]) ++ []) _
      rw [List.append_nil]
      exact .endStored (ht.trans hle) s.closed started stored finished

/-! ## one reading -/

/-- what a call may return at most, and at least -/
def upper (cs : List Change) (t₁ t₂ : ℚ) : ℚ := worldTime cs t₁ + startLag cs t₂
def lower (cs : List Change) (t₁ t₂ : ℚ) : ℚ := worldTime cs t₁ - max (t₂ - t₁) (endLag cs t₂)

theorem Changes.left (h : s.Changes) : Sequential (pauses s.closed) := by
  have hseq := h.sequential
  unfold changes pauses at hseq
  rw [List.map_append] at hseq
  exact hseq.left

/-- the pauses that are over, at an earlier time -/
theorem Changes.owed (h : s.Changes) (ht : t₁ ≤ s.time) :
    excused pauseExcuseMax (pauses s.closed) t₁ ≤ s.record.paused ∧
      s.record.paused - excused pauseExcuseMax (pauses s.closed) t₁ ≤ s.time - t₁ := by
  rw [h.paused]
  exact excused_lipschitz pauseExcuseMax_nonneg h.left ht

theorem worldTime_snoc (cs : List Change) (c : Change) (t : ℚ) :
    worldTime (cs ++ [c]) t = t - (excused pauseExcuseMax (pauses cs) t + excusedBy pauseExcuseMax t c.pause) := by
  unfold worldTime
  rw [excused_snoc]

/-- a reading, by what it is over and under for the change in progress -/
theorem Changes.bounded (h : s.Changes) {c : Change} (hcurrent : s.current = some c)
    (hover : excusedBy pauseExcuseMax t₁ c.pause - s.record.stalled t₁ ≤ startLag s.changes s.time)
    (hunder : s.record.paused - excused pauseExcuseMax (pauses s.closed) t₁ + (s.record.stalled t₁ - excusedBy pauseExcuseMax t₁ c.pause) ≤
      max (s.time - t₁) (endLag s.changes s.time)) (ht : t₁ ≤ s.time) :
    s.record.value t₁ ≤ upper s.changes t₁ s.time ∧ lower s.changes t₁ s.time ≤ s.record.value t₁ := by
  obtain ⟨howed, -⟩ := h.owed ht
  have hworld : worldTime s.changes t₁ =
      t₁ - (excused pauseExcuseMax (pauses s.closed) t₁ + excusedBy pauseExcuseMax t₁ c.pause) := by
    unfold changes
    rw [hcurrent]
    exact worldTime_snoc s.closed c t₁
  unfold upper lower PauseRecord.value
  rw [hworld]
  exact ⟨by linarith, by linarith⟩

/-- no change is in progress, as far as the record goes -/
theorem Changes.value_quiet (h : s.Changes) (hcurrent : s.current = none) (hstarted : s.record.started = none) (ht : t₁ ≤ s.time) :
    s.record.value t₁ ≤ upper s.changes t₁ s.time ∧ lower s.changes t₁ s.time ≤ s.record.value t₁ := by
  obtain ⟨howed, hgap⟩ := h.owed ht
  have hvalue : s.record.value t₁ = t₁ - s.record.paused - 0 := by
    unfold PauseRecord.value PauseRecord.stalled
    rw [hstarted]
  have hworld : worldTime s.changes t₁ = t₁ - excused pauseExcuseMax (pauses s.closed) t₁ := by
    unfold worldTime changes
    rw [hcurrent, Option.toList_none, List.append_nil]
  unfold upper lower
  rw [hvalue, hworld]
  have hlag : 0 ≤ startLag s.changes s.time := longest_nonneg _ _
  have hmax := le_max_left (s.time - t₁) (endLag s.changes s.time)
  exact ⟨by linarith, by linarith⟩

/-- the start of a change is read and not stored: the record does not know of the pause -/
theorem Changes.value_timed (h : s.Changes) {started : ℚ} (hcurrent : s.current = some { start := started })
    (hstarted : s.record.started = none) (ht : t₁ ≤ s.time) :
    s.record.value t₁ ≤ upper s.changes t₁ s.time ∧ lower s.changes t₁ s.time ≤ s.record.value t₁ := by
  obtain ⟨-, hgap⟩ := h.owed ht
  have hforward : ∀ e ∈ (Change.pause { start := started }).ended, started ≤ e := fun e (he : e ∈ none) => by cases he
  have hstalled : s.record.stalled t₁ = 0 := by
    unfold PauseRecord.stalled
    rw [hstarted]
  have hpart : excusedBy pauseExcuseMax t₁ (Change.pause { start := started }) ≤ max 0 (s.time - started) := by
    rw [excusedBy_eq pauseExcuseMax_nonneg hforward]
    exact (min_le_left _ _).trans (max_le_max_left 0 (sub_le_sub_right ht started))
  have hlag : max 0 (s.time - started) ≤ startLag s.changes s.time := by
    unfold changes
    rw [hcurrent]
    exact le_longest_last (Change.startLag s.time) s.closed { start := started }
  have hnonneg := excusedBy_nonneg (t := t₁) pauseExcuseMax_nonneg hforward
  have hmax := le_max_left (s.time - t₁) (endLag s.changes s.time)
  exact h.bounded hcurrent (by linarith) (by linarith) ht

/-- the start is stored: the record is right about the pause -/
theorem Changes.value_changing (h : s.Changes) {paused started stored : ℚ}
    (hcurrent : s.current = some { start := started, startStored := some stored }) (hrecord : s.record = ⟨paused, some started⟩)
    (ht : t₁ ≤ s.time) : s.record.value t₁ ≤ upper s.changes t₁ s.time ∧ lower s.changes t₁ s.time ≤ s.record.value t₁ := by
  obtain ⟨-, hgap⟩ := h.owed ht
  have hstalled : s.record.stalled t₁ = excusedBy pauseExcuseMax t₁ (Change.pause { start := started, startStored := some stored }) := by
    rw [hrecord, excusedBy_eq pauseExcuseMax_nonneg fun e (he : e ∈ none) => by cases he]
    rfl
  have hlag : 0 ≤ startLag s.changes s.time := longest_nonneg _ _
  have hmax := le_max_left (s.time - t₁) (endLag s.changes s.time)
  exact h.bounded hcurrent (by linarith) (by linarith) ht

/-- the end is read and not stored: the record takes the pause for one that goes on -/
theorem Changes.value_ended (h : s.Changes) {paused started stored finished : ℚ}
    (hcurrent : s.current = some { start := started, startStored := some stored, ended := some finished })
    (hrecord : s.record = ⟨paused, some started⟩) (hforward : started ≤ finished) (ht : t₁ ≤ s.time) :
    s.record.value t₁ ≤ upper s.changes t₁ s.time ∧ lower s.changes t₁ s.time ≤ s.record.value t₁ := by
  obtain ⟨-, hgap⟩ := h.owed ht
  have hstalled : s.record.stalled t₁ = min (max 0 (t₁ - started)) pauseExcuseMax := by
    rw [hrecord]
    rfl
  have hpart : excusedBy pauseExcuseMax t₁ (Change.pause { start := started, startStored := some stored, ended := some finished }) =
      min (max 0 (min t₁ finished - started)) pauseExcuseMax := by
    refine excusedBy_eq pauseExcuseMax_nonneg fun e he => ?_
    obtain rfl := Option.some.inj he
    exact hforward
  have hshort : min t₁ finished - started ≤ t₁ - started := sub_le_sub_right (min_le_left _ _) _
  have hmono : min (max 0 (min t₁ finished - started)) pauseExcuseMax ≤ min (max 0 (t₁ - started)) pauseExcuseMax := clip_mono hshort
  have hlag : 0 ≤ startLag s.changes s.time := longest_nonneg _ _
  refine h.bounded hcurrent (by linarith) ?_ ht
  rcases le_total started t₁ with hin | hout
  · -- the earlier pauses are over: all that is wrong is what goes on after the end
    have hsettled : s.record.paused = excused pauseExcuseMax (pauses s.closed) t₁ := by
      have hover : ∀ p ∈ pauses s.closed, ∃ e, p.ended = some e ∧ p.start ≤ e ∧ e ≤ t₁ := by
        intro p hp
        obtain ⟨c, hc, rfl⟩ := List.mem_map.mp hp
        obtain ⟨ended, hended, hforward', -, hbefore⟩ := h.closed c hc
        exact ⟨ended, hended, hforward', (hbefore _ hcurrent).trans hin⟩
      rw [h.paused]
      exact excused_settled hover ht
    have hlip : min (max 0 (t₁ - started)) pauseExcuseMax - min (max 0 (min t₁ finished - started)) pauseExcuseMax ≤
        t₁ - started - (min t₁ finished - started) := clip_lipschitz hshort
    have hend : max 0 (s.time - finished) ≤ endLag s.changes s.time := by
      unfold changes
      rw [hcurrent]
      exact le_longest_last (Change.endLag s.time) s.closed { start := started, startStored := some stored, ended := some finished }
    have hrest : t₁ - min t₁ finished ≤ max 0 (s.time - finished) := by
      rcases min_cases t₁ finished with ⟨hmin, -⟩ | ⟨hmin, -⟩
      · rw [hmin, sub_self]
        exact le_max_left _ _
      · rw [hmin]
        exact (sub_le_sub_right ht finished).trans (le_max_right _ _)
    have hmax := le_max_right (s.time - t₁) (endLag s.changes s.time)
    linarith
  · -- the change began after the time was read
    have hzero : s.record.stalled t₁ = 0 := by
      rw [hstalled, max_eq_left (sub_nonpos.mpr hout), min_eq_left pauseExcuseMax_nonneg]
    have hnonneg : 0 ≤ min (max 0 (min t₁ finished - started)) pauseExcuseMax := le_min (le_max_left _ _) pauseExcuseMax_nonneg
    have hmax := le_max_left (s.time - t₁) (endLag s.changes s.time)
    linarith

/-- **A record and a time that was read before it** -/
theorem Changes.value (h : s.Changes) (ht : t₁ ≤ s.time) :
    s.record.value t₁ ≤ upper s.changes t₁ s.time ∧ lower s.changes t₁ s.time ≤ s.record.value t₁ := by
  have hprogress := h.progress
  unfold Progress at hprogress
  cases hc : s.changer with
  | idle =>
    rw [hc] at hprogress
    exact h.value_quiet hprogress.1 hprogress.2 ht
  | entered =>
    rw [hc] at hprogress
    exact h.value_quiet hprogress.1 hprogress.2 ht
  | read paused =>
    rw [hc] at hprogress
    exact h.value_quiet hprogress.1 hprogress.2.1 ht
  | timed paused started =>
    rw [hc] at hprogress
    obtain ⟨hcurrent, hstarted, -, -⟩ := hprogress
    exact h.value_timed hcurrent hstarted ht
  | changing paused started =>
    rw [hc] at hprogress
    obtain ⟨stored, hcurrent, hrecord, -, -⟩ := hprogress
    exact h.value_changing hcurrent hrecord ht
  | ended paused started finished =>
    rw [hc] at hprogress
    obtain ⟨stored, hcurrent, hrecord, hstarted, hstored, -⟩ := hprogress
    exact h.value_ended hcurrent hrecord (hstarted.trans hstored) ht

/-! ## every run -/

/-- what is known inside a `clock` -/
def Reading (s : SharedClock) : Prop :=
  match s.clocker with
  | .idle | .entered => ∀ v ∈ s.clockLast, v ≤ upper s.changes s.time s.time
  | .timed t₁ => t₁ ≤ s.time ∧ ∀ v ∈ s.clockLast, v ≤ upper s.changes t₁ t₁
  | .read t₁ t₂ record =>
    t₁ ≤ t₂ ∧ t₂ ≤ s.time ∧ (∀ v ∈ s.clockLast, v ≤ upper s.changes t₁ t₁) ∧ record.value t₁ ≤ upper s.changes t₁ t₂ ∧
      lower s.changes t₁ t₂ ≤ record.value t₁

/-- what is known of a call -/
def Bounded (s : SharedClock) (c : ClockCall) : Prop :=
  c.t₁ ≤ c.t₂ ∧ c.t₂ ≤ s.time ∧ c.result ≤ upper s.changes c.t₁ c.t₂ ∧ lower s.changes c.t₁ c.t₂ ≤ c.result

structure Ok (s : SharedClock) : Prop where
  changes : s.Changes
  reading : s.Reading
  calls : ∀ c ∈ s.calls, s.Bounded c
  rising : (s.calls.map ClockCall.result).Pairwise (· ≤ ·)
  last : ∀ c ∈ s.calls, ∃ v ∈ s.clockLast, c.result ≤ v

theorem upper_mono (h : s.Changes) {t₁' t₂ t₂' : ℚ} (h₁ : t₁' ≤ t₁) (h₂ : t₂' ≤ t₂) : upper s.changes t₁' t₂' ≤ upper s.changes t₁ t₂ := by
  obtain ⟨-, hlip⟩ := excused_lipschitz pauseExcuseMax_nonneg h.sequential h₁
  have hlag := startLag_mono h₂ s.changes
  unfold upper worldTime
  linarith

theorem upper_same {cs cs' : List Change} {time t₂ : ℚ} (h : ∀ t, t ≤ time → Same t cs cs') (h₁ : t₁ ≤ t₂) (h₂ : t₂ ≤ time) :
    upper cs t₁ t₂ = upper cs' t₁ t₂ := by
  unfold upper
  rw [(h t₁ (h₁.trans h₂)).worldTime, (h t₂ h₂).startLag]

theorem lower_same {cs cs' : List Change} {time t₂ : ℚ} (h : ∀ t, t ≤ time → Same t cs cs') (h₁ : t₁ ≤ t₂) (h₂ : t₂ ≤ time) :
    lower cs t₁ t₂ = lower cs' t₁ t₂ := by
  unfold lower
  rw [(h t₁ (h₁.trans h₂)).worldTime, (h t₂ h₂).endLag]

theorem later_le {last : Option ℚ} {value b : ℚ} (hlast : ∀ v ∈ last, v ≤ b) (hvalue : value ≤ b) : later last value ≤ b := by
  cases last with
  | none => exact hvalue
  | some v => exact max_le (hlast v rfl) hvalue

theorem le_later (last : Option ℚ) (value : ℚ) : value ≤ later last value := by
  cases last with
  | none => exact le_rfl
  | some v => exact le_max_right v value

theorem last_le_later {last : Option ℚ} {v : ℚ} (h : v ∈ last) (value : ℚ) : v ≤ later last value := by
  obtain rfl := Option.mem_def.mp h
  exact le_max_left v value

theorem Ok.start (time : ℚ) : Ok { time := time } := by
  refine ⟨.start time, fun v hv => ?_, fun c hc => ?_, .nil, fun c hc => ?_⟩
  · cases hv
  · cases hc
  · cases hc

/-- an access of an `apply_scene` -/
theorem Ok.change (h : s.Ok) (hle : s.time ≤ now) : (s.change now).Ok := by
  obtain ⟨hchanges, hsame⟩ := h.changes.change hle
  have htime : (s.change now).time = now := by
    unfold SharedClock.change
    cases s.changer <;> rfl
  have hclocker : (s.change now).clocker = s.clocker ∧ (s.change now).clockLast = s.clockLast ∧ (s.change now).calls = s.calls := by
    unfold SharedClock.change
    cases s.changer <;> exact ⟨rfl, rfl, rfl⟩
  obtain ⟨hpc, hlast, hcalls⟩ := hclocker
  refine ⟨hchanges, ?_, ?_, ?_, ?_⟩
  · have hreading := h.reading
    unfold Reading at hreading ⊢
    rw [hpc, hlast, htime]
    have hidle : (∀ v ∈ s.clockLast, v ≤ upper s.changes s.time s.time) → ∀ v ∈ s.clockLast, v ≤ upper (s.change now).changes now now := by
      intro hbound v hv
      refine (hbound v hv).trans ?_
      rw [← upper_same hsame le_rfl le_rfl]
      exact upper_mono hchanges hle hle
    cases hc : s.clocker with
    | idle =>
      rw [hc] at hreading
      exact hidle hreading
    | entered =>
      rw [hc] at hreading
      exact hidle hreading
    | timed t₁ =>
      rw [hc] at hreading
      obtain ⟨h₁, hbound⟩ := hreading
      show t₁ ≤ now ∧ ∀ v ∈ s.clockLast, v ≤ upper (s.change now).changes t₁ t₁
      rw [upper_same hsame le_rfl h₁]
      exact ⟨h₁.trans hle, hbound⟩
    | read t₁ t₂ record =>
      rw [hc] at hreading
      obtain ⟨h₁, h₂, hbound, hup, hlow⟩ := hreading
      show t₁ ≤ t₂ ∧ t₂ ≤ now ∧ (∀ v ∈ s.clockLast, v ≤ upper (s.change now).changes t₁ t₁) ∧
        record.value t₁ ≤ upper (s.change now).changes t₁ t₂ ∧ lower (s.change now).changes t₁ t₂ ≤ record.value t₁
      rw [upper_same hsame le_rfl (h₁.trans h₂), upper_same hsame h₁ h₂, lower_same hsame h₁ h₂]
      exact ⟨h₁, h₂.trans hle, hbound, hup, hlow⟩
  · rw [hcalls]
    intro c hc
    obtain ⟨h₁, h₂, hup, hlow⟩ := h.calls c hc
    unfold Bounded
    rw [htime, upper_same hsame h₁ h₂, lower_same hsame h₁ h₂]
    exact ⟨h₁, h₂.trans hle, hup, hlow⟩
  · rw [hcalls]
    exact h.rising
  · rw [hcalls, hlast]
    exact h.last

/-- only time goes on -/
theorem Changes.wait (h : s.Changes) {s' : SharedClock} (hle : s.time ≤ s'.time) (hrecord : s'.record = s.record)
    (hchanger : s'.changer = s.changer) (hclosed : s'.closed = s.closed) (hcurrent : s'.current = s.current) : s'.Changes := by
  have hsame : s'.changes = s.changes := by
    unfold changes
    rw [hclosed, hcurrent]
  refine h.moved hle hclosed (by rw [hrecord]) (fun c' hc' c hcl ended he => h.before hcl (hcurrent ▸ hc') he) ?_ (hsame ▸ h.sequential)
  have hprogress := h.progress
  unfold Progress at hprogress ⊢
  rw [hchanger, hcurrent, hrecord]
  cases hc : s.changer with
  | idle =>
    rw [hc] at hprogress
    exact hprogress
  | entered =>
    rw [hc] at hprogress
    exact hprogress
  | read paused =>
    rw [hc] at hprogress
    exact hprogress
  | timed paused started =>
    rw [hc] at hprogress
    obtain ⟨h₁, h₂, h₃, hstarted⟩ := hprogress
    exact ⟨h₁, h₂, h₃, hstarted.trans hle⟩
  | changing paused started =>
    rw [hc] at hprogress
    obtain ⟨stored, h₁, h₂, h₃, hstored⟩ := hprogress
    exact ⟨stored, h₁, h₂, h₃, hstored.trans hle⟩
  | ended paused started finished =>
    rw [hc] at hprogress
    obtain ⟨stored, h₁, h₂, h₃, h₄, hfinished⟩ := hprogress
    exact ⟨stored, h₁, h₂, h₃, h₄, hfinished.trans hle⟩

/-- a call returns -/
theorem Ok.answered (h : s.Ok) (hle : s.time ≤ now) {t₂ : ℚ} {record : PauseRecord} (hc : s.clocker = .read t₁ t₂ record) :
    Ok { s with
      time := now
      clocker := .idle
      clockLast := some (later s.clockLast (record.value t₁))
      calls := s.calls ++ [ClockCall.mk t₁ t₂ (later s.clockLast (record.value t₁))] } := by
  have hreading := h.reading
  unfold Reading at hreading
  rw [hc] at hreading
  obtain ⟨h₁, h₂, hbound, hup, hlow⟩ := hreading
  have hresult : later s.clockLast (record.value t₁) ≤ upper s.changes t₁ t₂ :=
    later_le (fun v hv => (hbound v hv).trans (upper_mono h.changes le_rfl h₁)) hup
  have hrises : ∀ c ∈ s.calls, c.result ≤ later s.clockLast (record.value t₁) := by
    intro c hcall
    obtain ⟨v, hv, hle'⟩ := h.last c hcall
    exact hle'.trans (last_le_later hv _)
  refine ⟨h.changes.wait hle rfl rfl rfl rfl, fun v hv => ?_, fun c hcall => ?_, ?_, fun c hcall => ⟨_, rfl, ?_⟩⟩
  · obtain rfl := Option.some.inj hv
    exact hresult.trans (upper_mono h.changes (h₁.trans (h₂.trans hle)) (h₂.trans hle))
  · rcases List.mem_append.mp hcall with hold | hlast
    · obtain ⟨hc₁, hc₂, hrest⟩ := h.calls c hold
      exact ⟨hc₁, hc₂.trans hle, hrest⟩
    · obtain rfl := List.mem_singleton.mp hlast
      exact ⟨h₁, h₂.trans hle, hresult, hlow.trans (le_later _ _)⟩
  · rw [List.map_append]
    refine List.pairwise_append.mpr ⟨h.rising, List.pairwise_singleton .., fun x hx y hy => ?_⟩
    obtain ⟨c, hcall, rfl⟩ := List.mem_map.mp hx
    obtain rfl := List.mem_singleton.mp hy
    exact hrises c hcall
  · rcases List.mem_append.mp hcall with hold | hlast
    · exact hrises c hold
    · obtain rfl := List.mem_singleton.mp hlast
      exact le_rfl

/-- an access of a `clock` -/
theorem Ok.clock (h : s.Ok) (hle : s.time ≤ now) : (s.clock now).Ok := by
  have hold : ∀ c ∈ s.calls, c.t₁ ≤ c.t₂ ∧ c.t₂ ≤ now ∧ c.result ≤ upper s.changes c.t₁ c.t₂ ∧ lower s.changes c.t₁ c.t₂ ≤ c.result := by
    intro c hcall
    obtain ⟨h₁, h₂, hrest⟩ := h.calls c hcall
    exact ⟨h₁, h₂.trans hle, hrest⟩
  have hreading := h.reading
  unfold Reading at hreading
  unfold SharedClock.clock
  cases hc : s.clocker with
  | idle =>
    rw [hc] at hreading
    exact ⟨h.changes.wait hle rfl rfl rfl rfl, fun v hv => (hreading v hv).trans (upper_mono h.changes hle hle), hold, h.rising, h.last⟩
  | entered =>
    rw [hc] at hreading
    exact ⟨h.changes.wait hle rfl rfl rfl rfl, ⟨le_rfl, fun v hv => (hreading v hv).trans (upper_mono h.changes hle hle)⟩, hold, h.rising,
      h.last⟩
  | timed t₁ =>
    rw [hc] at hreading
    obtain ⟨h₁, hbound⟩ := hreading
    have hwait : Changes { s with time := now, clocker := .read t₁ now s.record } := h.changes.wait hle rfl rfl rfl rfl
    exact ⟨hwait, ⟨h₁.trans hle, le_rfl, hbound, hwait.value (h₁.trans hle)⟩, hold, h.rising, h.last⟩
  | read t₁ t₂ record => exact h.answered hle hc

theorem Ok.run (time : ℚ) {es : List Event} (h : Run.Along SharedClock.step InTime { time := time } es) :
    (Run.run SharedClock.step { time := time } es).Ok := by
  refine Run.invariant (.start time) (fun s e hle hs => ?_) h
  cases e with
  | change now => exact hs.change hle
  | clock now => exact hs.clock hle

/-- **The world clock** never goes back, is ahead of the time of the world by at most the time for which a start was read and not stored,
and behind it by at most the time between its two reads, or the time for which an end was read and not stored. -/
theorem world_clock (time : ℚ) (es : List Event) (h : Run.Along step InTime { time := time } es) :
    ((Run.run step { time := time } es).calls.map ClockCall.result).Pairwise (· ≤ ·) ∧
    ∀ c ∈ (Run.run step { time := time } es).calls, c.t₁ ≤ c.t₂ ∧
      c.result ≤ worldTime (Run.run step { time := time } es).changes c.t₁ + startLag (Run.run step { time := time } es).changes c.t₂ ∧
      worldTime (Run.run step { time := time } es).changes c.t₁ -
        max (c.t₂ - c.t₁) (endLag (Run.run step { time := time } es).changes c.t₂) ≤ c.result := by
  have hok := Ok.run time h
  refine ⟨hok.rising, fun c hc => ?_⟩
  obtain ⟨h₁, -, hup, hlow⟩ := hok.calls c hc
  exact ⟨h₁, hup, hlow⟩

/-- a whole `clock` call -/
def callAt (now : ℚ) : List Event := List.replicate 4 (.clock now)

/-- a pause of a second from 10 s on, with calls before, in and after it -/
def pauseOfASecond : List Event :=
  callAt 9 ++ List.replicate 4 (.change 10) ++ callAt (21/2) ++ List.replicate 2 (.change 11) ++ callAt 12

theorem world_clock_pause :
    (Run.run step { time := 0 } pauseOfASecond).calls.map ClockCall.result = [9, 10, 11] ∧
    ∀ c ∈ (Run.run step { time := 0 } pauseOfASecond).calls, c.t₁ ≤ c.t₂ ∧
      c.result ≤ worldTime (Run.run step { time := 0 } pauseOfASecond).changes c.t₁ +
        startLag (Run.run step { time := 0 } pauseOfASecond).changes c.t₂ ∧
      worldTime (Run.run step { time := 0 } pauseOfASecond).changes c.t₁ -
        max (c.t₂ - c.t₁) (endLag (Run.run step { time := 0 } pauseOfASecond).changes c.t₂) ≤ c.result :=
  ⟨by decide +kernel, (world_clock 0 pauseOfASecond (by decide +kernel)).2⟩

/-- a call in between the start of a change and its store -/
def beforeStore : List Event := List.replicate 3 (.change 10) ++ callAt (101/10)

/-- a call in between the end of a change and its store -/
def beforeLastStore : List Event := List.replicate 4 (.change 10) ++ [.change 11] ++ callAt (111/10)

/-- what the record does not know yet, the clock gets wrong, either way -/
theorem clock_off_by_stores :
    (¬ ∀ es : List Event, Run.Along step InTime { time := 0 } es → ∀ c ∈ (Run.run step { time := 0 } es).calls,
      c.result ≤ worldTime (Run.run step { time := 0 } es).changes c.t₁) ∧
    ¬ ∀ es : List Event, Run.Along step InTime { time := 0 } es → ∀ c ∈ (Run.run step { time := 0 } es).calls,
      worldTime (Run.run step { time := 0 } es).changes c.t₁ - (c.t₂ - c.t₁) ≤ c.result := by
  constructor
  · intro h
    exact absurd (h beforeStore (by decide +kernel)) (by decide +kernel)
  · intro h
    exact absurd (h beforeLastStore (by decide +kernel)) (by decide +kernel)

end SharedClock

end ArmControl.Plants.WorldClock
