import Mathlib.Data.List.Pairwise
import ArmControl.Lib.Run
import ArmControl.Lib.Since

/-!
# Observations (`sim_link.py`, observe/1)

The tick records an observation into a bounded ring that it never waits on; a reader passes the cursor of each reply on.

* `ObserveRing`      the ring and its counters: `observe` is one tick, `observations` one read;
* `Reply`            what a read returns;
* `Reader`, `step`   one reader, its replies and the ticks between them;
* `observations_samples`   what a read returns, in terms of all that was recorded;
* `Accounted`        a reply returns every number up to its cursor or counts it as dropped;
* `cursor_reads`     **it holds in every run.**

The world a tick records is any value; the reads and the recording are under one lock.
-/

namespace ArmControl.Plants.Sim
open History

/-- the service's bound on one read -/
def observeLimitMax : ℤ := 64

structure Observation (α : Type) where
  seq : ℕ
  world : α
  deriving DecidableEq

structure Reply (α : Type) where
  samples : List (Observation α)
  latestSeq : ℤ
  dropped : ℤ
  errors : ℕ
  capacity : ℕ
  deriving DecidableEq

/-- the ring's length, and the ticks to one observation -/
structure ObserveConfig where
  capacity : ℕ
  every : ℕ
  positive : 0 < capacity ∧ 0 < every

structure ObserveRing (α : Type) extends ObserveConfig where
  obs : List (Observation α) := []
  obsTick : ℕ := 0
  obsSeq : ℕ := 0
  obsErrors : ℕ := 0

namespace ObserveRing

variable {α : Type}

/-- `deque.append` -/
def append (r : ObserveRing α) (sample : Observation α) : List (Observation α) :=
  (r.obs ++ [sample]).drop (r.obs.length + 1 - r.capacity)

/-- a tick; `none` where the observation fails -/
def observe (r : ObserveRing α) (world : Option α) : ObserveRing α :=
  if (r.obsTick + 1) % r.every ≠ 0 then { r with obsTick := r.obsTick + 1 }
  else
    match world with
    | some world =>
      { r with obsTick := r.obsTick + 1, obsSeq := r.obsSeq + 1, obs := r.append ⟨r.obsSeq + 1, world⟩ }
    | none => { r with obsTick := r.obsTick + 1, obsErrors := r.obsErrors + 1 }

/-- a caught-up reader, or one with nothing to read -/
def caughtUp (r : ObserveRing α) (after : ℤ) : Bool := r.obs.getLast?.all fun last => decide ((last.seq : ℤ) ≤ after)

/-- the index of the first sample after `after` -/
def start (r : ObserveRing α) (after : ℤ) : ℕ :=
  match r.obs.head? with
  | some first => (max 0 (after - first.seq + 1)).toNat
  | none => 0

def observations (r : ObserveRing α) (after limit : ℤ) : Reply α :=
  let limit := min (max 1 limit) observeLimitMax
  let ring := if r.caughtUp after then [] else (r.obs.drop (r.start after)).take limit.toNat
  { samples := ring
    latestSeq := (ring.getLast?.map fun last => (last.seq : ℤ)).getD (min (max after 0) r.obsSeq)
    dropped :=
      match ring.head? with
      | some first => if 0 < after then max 0 (first.seq - after - 1) else 0
      | none => 0
    errors := r.obsErrors
    capacity := r.capacity }

end ObserveRing

/-! ## one reader -/

inductive ObserveEvent (α : Type) where
  | tick (world : Option α)
  | read (limit : ℤ)

/-- the reader's cursor and the replies it got, each with the cursor it asked with -/
structure Reader (α : Type) where
  ring : ObserveRing α
  cursor : ℤ := 0
  replies : List (ℤ × Reply α) := []

namespace Reader

variable {α : Type}

def step (s : Reader α) : ObserveEvent α → Reader α
  | .tick world => { s with ring := s.ring.observe world }
  | .read limit =>
    let reply := s.ring.observations s.cursor limit
    { s with cursor := reply.latestSeq, replies := s.replies ++ [(s.cursor, reply)] }

end Reader

/-- a reply to `after` returns the numbers behind it up to its cursor, but for the dropped ones, which come first -/
structure Accounted {α : Type} (after : ℤ) (r : Reply α) : Prop where
  counted : 0 ≤ r.dropped
  total : after + r.dropped + r.samples.length = r.latestSeq
  numbers : ∀ i (h : i < r.samples.length), (r.samples[i].seq : ℤ) = after + r.dropped + 1 + i

section
variable {α : Type} {r : ObserveRing α} {recorded : List α}

/-- all that was recorded, numbered from 1 -/
def numbered (recorded : List α) : List (Observation α) := recorded.mapIdx fun i world => ⟨i + 1, world⟩

/-- the ring keeps the newest of what was recorded -/
structure ObserveRing.Keeps (r : ObserveRing α) (recorded : List α) : Prop where
  seq : r.obsSeq = recorded.length
  obs : r.obs = (numbered recorded).drop (recorded.length - r.capacity)

theorem length_numbered : (numbered recorded).length = recorded.length := List.length_mapIdx

theorem numbered_snoc (world : α) : numbered (recorded ++ [world]) = numbered recorded ++ [⟨recorded.length + 1, world⟩] :=
  List.mapIdx_concat

theorem seq_numbered {i : ℕ} (h : i < (numbered recorded).length) : ((numbered recorded)[i]).seq = i + 1 := by
  simp [numbered]

theorem ObserveRing.Keeps.append (h : r.Keeps recorded) (world : α) :
    r.append ⟨r.obsSeq + 1, world⟩ =
      (numbered (recorded ++ [world])).drop ((recorded ++ [world]).length - r.capacity) := by
  unfold ObserveRing.append
  have hlength : r.obs.length = recorded.length - (recorded.length - r.capacity) := by
    rw [h.obs, List.length_drop, length_numbered]
  rw [numbered_snoc, ← h.seq, h.obs, ← List.drop_append_of_le_length (by rw [length_numbered]; omega), List.drop_drop]
  congr 1
  rw [← h.obs, hlength, List.length_append, List.length_singleton]
  have hpositive := r.positive.1
  omega

/-- a tick records one more, or nothing -/
theorem ObserveRing.Keeps.observe (h : r.Keeps recorded) (world : Option α) :
    ∃ recorded', (r.observe world).Keeps recorded' ∧ r.obsSeq ≤ (r.observe world).obsSeq := by
  unfold ObserveRing.observe
  split
  · exact ⟨recorded, ⟨h.seq, h.obs⟩, le_refl _⟩
  · cases world with
    | none => exact ⟨recorded, ⟨h.seq, h.obs⟩, le_refl _⟩
    | some world =>
      refine ⟨recorded ++ [world], ⟨?_, h.append world⟩, Nat.le_succ _⟩
      rw [List.length_append, List.length_singleton, ← h.seq]

/-! ## one read -/

/-- where a read starts among all that was recorded -/
def ObserveRing.base (r : ObserveRing α) (after : ℤ) : ℕ := max after.toNat (r.obsSeq - r.capacity)

theorem ObserveRing.Keeps.head (h : r.Keeps recorded) (hne : recorded ≠ []) :
    ∃ first, r.obs.head? = some first ∧ first.seq = r.obsSeq - r.capacity + 1 := by
  have hpositive := r.positive.1
  have hlength := List.length_pos_iff.mpr hne
  have hlt : recorded.length - r.capacity < (numbered recorded).length := by rw [length_numbered]; omega
  refine ⟨(numbered recorded)[recorded.length - r.capacity], ?_, ?_⟩
  · rw [h.obs, List.head?_drop, List.getElem?_eq_getElem hlt]
  · rw [seq_numbered, h.seq]

theorem ObserveRing.Keeps.last (h : r.Keeps recorded) (hne : recorded ≠ []) :
    ∃ last, r.obs.getLast? = some last ∧ last.seq = r.obsSeq := by
  have hpositive := r.positive.1
  have hlength := List.length_pos_iff.mpr hne
  have hlt : recorded.length - 1 < (numbered recorded).length := by rw [length_numbered]; omega
  refine ⟨(numbered recorded)[recorded.length - 1], ?_, ?_⟩
  · rw [h.obs, List.getLast?_drop, length_numbered, if_neg (by omega), List.getLast?_eq_getElem?, length_numbered,
      List.getElem?_eq_getElem hlt]
  · rw [seq_numbered, h.seq]
    omega

theorem ObserveRing.Keeps.samples (h : r.Keeps recorded) (after limit : ℤ) :
    (r.observations after limit).samples =
      ((numbered recorded).drop (r.base after)).take (min (max 1 limit) observeLimitMax).toNat := by
  unfold ObserveRing.observations ObserveRing.base
  dsimp only
  have hcount : (numbered recorded).length = recorded.length := length_numbered
  rcases eq_or_ne recorded [] with rfl | hne
  · have hobs : r.obs = [] := by simpa [numbered] using h.obs
    simp [ObserveRing.caughtUp, hobs, numbered]
  · obtain ⟨last, hlast, hlastSeq⟩ := h.last hne
    obtain ⟨first, hfirst, hfirstSeq⟩ := h.head hne
    have hcaught : r.caughtUp after = decide ((r.obsSeq : ℤ) ≤ after) := by
      unfold ObserveRing.caughtUp
      rw [hlast, ← hlastSeq]
      rfl
    rw [hcaught]
    by_cases hle : (r.obsSeq : ℤ) ≤ after
    · rw [if_pos (decide_eq_true hle), List.drop_of_length_le (by rw [hcount, ← h.seq]; omega), List.take_nil]
    · rw [if_neg (by simpa using hle)]
      have hstart : r.start after = (max 0 (after - first.seq + 1)).toNat := by
        unfold ObserveRing.start
        rw [hfirst]
      rw [hstart, h.obs, List.drop_drop, ← h.seq, hfirstSeq]
      congr 2
      omega

/-- **What a read returns**: from its base, no further than the limit and the newest. -/
structure ObserveRing.Read (r : ObserveRing α) (after : ℤ) (reply : Reply α) : Prop where
  most : r.base after + reply.samples.length ≤ max (r.base after) r.obsSeq
  some_of : r.base after < r.obsSeq → reply.samples ≠ []
  numbers : ∀ i (h : i < reply.samples.length), reply.samples[i].seq = r.base after + i + 1

theorem ObserveRing.Keeps.read (h : r.Keeps recorded) (after limit : ℤ) : r.Read after (r.observations after limit) := by
  have hsamples := h.samples after limit
  have hlimit : 0 < (min (max 1 limit) observeLimitMax).toNat := by
    unfold observeLimitMax
    omega
  have hlength : (r.observations after limit).samples.length =
      min (min (max 1 limit) observeLimitMax).toNat (r.obsSeq - r.base after) := by
    rw [hsamples, List.length_take, List.length_drop, length_numbered, h.seq]
  constructor
  · omega
  · intro hlt hnil
    rw [hnil, List.length_nil] at hlength
    omega
  · intro i hi
    have hlt : r.base after + i < (numbered recorded).length := by
      rw [length_numbered, ← h.seq]
      omega
    have hget : (r.observations after limit).samples[i] = (numbered recorded)[r.base after + i] := by
      simp only [hsamples, List.getElem_take, List.getElem_drop]
    rw [hget, seq_numbered]

/-- the cursor of a read -/
theorem ObserveRing.Keeps.latestSeq (h : r.Keeps recorded) (after limit : ℤ) :
    (r.observations after limit).latestSeq =
      if r.base after < r.obsSeq then (r.base after + (r.observations after limit).samples.length : ℤ)
      else min (max after 0) r.obsSeq := by
  have hread := h.read after limit
  have hdef : (r.observations after limit).latestSeq =
      ((r.observations after limit).samples.getLast?.map fun last => (last.seq : ℤ)).getD
        (min (max after 0) r.obsSeq) := rfl
  rw [hdef]
  split
  next hlt =>
    have hpos := List.length_pos_iff.mpr (hread.some_of hlt)
    rw [List.getLast?_eq_getElem?, List.getElem?_eq_getElem (by omega), Option.map_some, Option.getD_some,
      hread.numbers _ (by omega)]
    omega
  next hnot =>
    have hmost := hread.most
    have hnil : (r.observations after limit).samples = [] := List.length_eq_zero_iff.mp (by omega)
    rw [hnil]
    rfl

/-- what a read reports as dropped -/
theorem ObserveRing.Keeps.dropped (h : r.Keeps recorded) (after limit : ℤ) (hpos : 0 < after) :
    (r.observations after limit).dropped = if r.base after < r.obsSeq then r.base after - after else 0 := by
  have hread := h.read after limit
  have hdef : (r.observations after limit).dropped =
      match (r.observations after limit).samples.head? with
      | some first => if 0 < after then max 0 (first.seq - after - 1) else 0
      | none => 0 := rfl
  have hbase : after.toNat ≤ r.base after := le_max_left _ _
  rw [hdef]
  split
  next first hfirst =>
    have hlt : 0 < (r.observations after limit).samples.length := List.length_pos_iff.mpr (by rintro hnil; simp [hnil] at hfirst)
    have hmost := hread.most
    have hnumber := hread.numbers 0 hlt
    rw [List.head?_eq_getElem?, List.getElem?_eq_getElem hlt, Option.some_inj] at hfirst
    rw [hfirst] at hnumber
    rw [if_pos hpos, if_pos (by omega), hnumber]
    omega
  next hnone =>
    rw [if_neg]
    intro hlt
    exact hread.some_of hlt (List.head?_eq_none_iff.mp hnone)

/-- a cursor of the past is accounted for -/
theorem ObserveRing.Keeps.accounted (h : r.Keeps recorded) {after : ℤ} (limit : ℤ) (hpos : 0 < after) (hle : after ≤ r.obsSeq) :
    Accounted after (r.observations after limit) := by
  have hread := h.read after limit
  have hdropped := h.dropped after limit hpos
  have hlatest := h.latestSeq after limit
  have hmost := hread.most
  have hbase : after.toNat ≤ r.base after := le_max_left _ _
  refine ⟨?_, ?_, fun i hi => ?_⟩
  · rw [hdropped]
    split <;> omega
  · rw [hdropped, hlatest]
    split <;> omega
  · rw [hread.numbers i hi, hdropped, if_pos (by omega)]
    omega

/-- a reply goes on from its cursor -/
structure Forward (after : ℤ) (reply : Reply α) : Prop where
  increasing : (reply.samples.map (·.seq)).Pairwise (· < ·)
  beyond : ∀ o ∈ reply.samples, after < o.seq ∧ (o.seq : ℤ) ≤ reply.latestSeq
  cursor : after ≤ reply.latestSeq

theorem ObserveRing.Keeps.forward (h : r.Keeps recorded) {after : ℤ} (limit : ℤ) (hpos : 0 ≤ after) (hle : after ≤ r.obsSeq) :
    Forward after (r.observations after limit) ∧ (r.observations after limit).latestSeq ≤ r.obsSeq := by
  have hread := h.read after limit
  have hlatest := h.latestSeq after limit
  have hmost := hread.most
  have hbase : after.toNat ≤ r.base after := le_max_left _ _
  refine ⟨⟨?_, ?_, ?_⟩, ?_⟩
  · rw [List.pairwise_iff_getElem]
    intro i j hi hj hij
    rw [List.length_map] at hi hj
    rw [List.getElem_map, List.getElem_map, hread.numbers i hi, hread.numbers j hj]
    omega
  · intro o ho
    obtain ⟨i, hi, rfl⟩ := List.getElem_of_mem ho
    rw [hlatest, hread.numbers i hi, if_pos (by omega)]
    omega
  · rw [hlatest]
    split <;> omega
  · rw [hlatest]
    split <;> omega

/-- a cursor beyond the newest gets nothing, and comes back to the newest -/
theorem ObserveRing.Keeps.foreign (h : r.Keeps recorded) {after : ℤ} (limit : ℤ) (hgt : (r.obsSeq : ℤ) < after) :
    (r.observations after limit).samples = [] ∧ (r.observations after limit).latestSeq = r.obsSeq := by
  have hmost := (h.read after limit).most
  have hbase : after.toNat ≤ r.base after := le_max_left _ _
  constructor
  · exact List.length_eq_zero_iff.mp (by omega)
  · rw [h.latestSeq, if_neg (by omega)]
    omega

/-! ## runs of one reader -/

/-- each read asks with the cursor of the reply before it, the first with `start` -/
def Passing (start : ℤ) (replies : List (ℤ × Reply α)) : Prop :=
  Justified (fun before entry => entry.1 = (before.getLast?.map (·.2.latestSeq)).getD start) replies

/-- the numbers a reader got -/
def returned (replies : List (ℤ × Reply α)) : List ℕ := replies.flatMap fun entry => entry.2.samples.map (·.seq)

/-- what holds of a reader that started at `start` -/
structure Reader.Sound (start : ℤ) (s : Reader α) : Prop where
  keeps : ∃ recorded, s.ring.Keeps recorded
  cursor : s.cursor = (s.replies.getLast?.map (·.2.latestSeq)).getD start
  known : 0 ≤ s.cursor ∧ s.cursor ≤ s.ring.obsSeq
  since : start ≤ s.cursor
  passing : Passing start s.replies
  increasing : (returned s.replies).Pairwise (· < ·)
  upTo : ∀ n ∈ returned s.replies, (n : ℤ) ≤ s.cursor
  asked : ∀ entry ∈ s.replies, start ≤ entry.1
  accounted : ∀ entry ∈ s.replies, 0 < entry.1 → Accounted entry.1 entry.2

theorem Reader.Sound.start {start : ℤ} {s : Reader α} (hkeeps : s.ring.Keeps recorded) (hcursor : s.cursor = start)
    (hreplies : s.replies = []) (hknown : 0 ≤ s.cursor ∧ s.cursor ≤ s.ring.obsSeq) : s.Sound start := by
  refine ⟨⟨_, hkeeps⟩, ?_, hknown, Int.le_of_eq hcursor.symm, ?_, ?_, ?_, ?_, ?_⟩
  · rw [hreplies]
    exact hcursor
  · rw [hreplies]
    exact justified_nil
  all_goals simp [hreplies, returned]

theorem Reader.Sound.tick {start : ℤ} {s : Reader α} (h : s.Sound start) (world : Option α) :
    (s.step (.tick world)).Sound start := by
  obtain ⟨recorded, hkeeps⟩ := h.keeps
  obtain ⟨recorded', hkeeps', hle⟩ := hkeeps.observe world
  have hknown := h.known
  refine ⟨⟨recorded', hkeeps'⟩, h.cursor, ⟨hknown.1, ?_⟩, h.since, h.passing, h.increasing, h.upTo, h.asked, h.accounted⟩
  show s.cursor ≤ (s.ring.observe world).obsSeq
  omega

theorem Reader.Sound.read {start : ℤ} {s : Reader α} (h : s.Sound start) (limit : ℤ) :
    (s.step (.read limit)).Sound start := by
  obtain ⟨recorded, hkeeps⟩ := h.keeps
  obtain ⟨hforward, hle⟩ := hkeeps.forward limit h.known.1 h.known.2
  have hreturned : returned (s.step (.read limit)).replies =
      returned s.replies ++ (s.ring.observations s.cursor limit).samples.map (·.seq) := by
    simp [returned, Reader.step]
  refine ⟨⟨recorded, hkeeps⟩, by simp [Reader.step], ⟨Int.le_trans h.known.1 hforward.cursor, hle⟩, Int.le_trans h.since hforward.cursor,
    h.passing.snoc h.cursor, ?_, ?_, ?_, ?_⟩
  · rw [hreturned, List.pairwise_append]
    refine ⟨h.increasing, hforward.increasing, fun n hn m hm => ?_⟩
    obtain ⟨o, ho, rfl⟩ := List.mem_map.mp hm
    have hn := h.upTo n hn
    have ho := (hforward.beyond o ho).1
    omega
  · intro n hn
    show (n : ℤ) ≤ (s.ring.observations s.cursor limit).latestSeq
    rw [hreturned, List.mem_append] at hn
    rcases hn with hn | hn
    · exact Int.le_trans (h.upTo n hn) hforward.cursor
    · obtain ⟨o, ho, rfl⟩ := List.mem_map.mp hn
      exact (hforward.beyond o ho).2
  · intro entry hentry
    rcases List.mem_append.mp hentry with hentry | hentry
    · exact h.asked entry hentry
    · rw [List.mem_singleton.mp hentry]
      exact h.since
  · intro entry hentry hpos
    rcases List.mem_append.mp hentry with hentry | hentry
    · exact h.accounted entry hentry hpos
    · rw [List.mem_singleton.mp hentry] at hpos ⊢
      exact hkeeps.accounted limit hpos h.known.2

theorem Reader.Sound.run {start : ℤ} {s : Reader α} (h : s.Sound start) (events : List (ObserveEvent α)) :
    (Run.run Reader.step s events).Sound start :=
  Run.invariant (C := fun _ _ => True) h
    (fun _ event _ h => match event with
      | .tick world => h.tick world
      | .read limit => h.read limit)
    (Run.along_of_forall (fun _ _ => trivial) events)

/-- **Reads by cursor lose nothing uncounted**, and a cursor of another process is brought back to the newest. -/
theorem cursor_reads (config : ObserveConfig) (events : List (ObserveEvent α)) :
    let s := Run.run Reader.step { ring := { config with } } events
    Passing 0 s.replies ∧
      (returned s.replies).Pairwise (· < ·) ∧
      (∀ entry ∈ s.replies, 0 < entry.1 → Accounted entry.1 entry.2) ∧
      ∀ after limit, (s.ring.obsSeq : ℤ) < after →
        let reply := s.ring.observations after limit
        reply.samples = [] ∧ reply.latestSeq = s.ring.obsSeq ∧
          (0 < s.ring.obsSeq → ∀ later,
            let s' := Run.run Reader.step { ring := s.ring, cursor := reply.latestSeq } later
            Passing reply.latestSeq s'.replies ∧ ∀ entry ∈ s'.replies, Accounted entry.1 entry.2) := by
  intro s
  have hnew : ObserveRing.Keeps ({ config with } : ObserveRing α) [] := ⟨rfl, by simp [numbered]⟩
  have hstart : Reader.Sound 0 ({ ring := { config with } } : Reader α) := .start hnew rfl rfl ⟨Int.le_refl 0, Int.le_refl 0⟩
  have h : s.Sound 0 := hstart.run events
  refine ⟨h.passing, h.increasing, h.accounted, fun after limit hgt => ?_⟩
  obtain ⟨recorded, hkeeps⟩ := h.keeps
  obtain ⟨hnone, hlatest⟩ := hkeeps.foreign limit hgt
  refine ⟨hnone, hlatest, fun hpos later => ?_⟩
  have h' : Reader.Sound (s.ring.observations after limit).latestSeq
      { ring := s.ring, cursor := (s.ring.observations after limit).latestSeq } :=
    .start hkeeps rfl rfl (by rw [hlatest]; exact ⟨Int.natCast_nonneg _, Int.le_refl _⟩)
  have hsound := h'.run later
  refine ⟨hsound.passing, fun entry hentry => hsound.accounted entry hentry ?_⟩
  have hasked := hsound.asked entry hentry
  rw [hlatest] at hasked
  omega

end

/-- a ring of one observation, every tick -/
def oneSample : ObserveRing Unit := { capacity := 1, every := 1, positive := by decide }

/-- nothing was recorded: the cursor comes back as 0, and the next read counts nothing as dropped -/
theorem empty_foreign :
    let reply := oneSample.observations 5 64
    let later := Run.run Reader.step { ring := oneSample, cursor := reply.latestSeq }
      [.tick (some ()), .tick (some ()), .tick (some ()), .read 64]
    oneSample.obsSeq < 5 ∧ reply.latestSeq = 0 ∧ later.ring.obsSeq = 3 ∧
      later.replies = [(0, ⟨[⟨3, ()⟩], 3, 0, 0, 1⟩)] ∧ ¬ ∀ entry ∈ later.replies, Accounted entry.1 entry.2 := by
  refine ⟨by decide, by decide, by decide, by decide, fun h => ?_⟩
  have h := (h (0, ⟨[⟨3, ()⟩], 3, 0, 0, 1⟩) (by decide)).total
  revert h
  decide

end ArmControl.Plants.Sim
