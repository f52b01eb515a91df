import Mathlib.Data.Int.ModEq
import ArmControl.Lib.Run

/-!
# A sequence lock, one load and one store at a time

Writers enter by a compare-and-swap that makes the sequence number odd, look at one field, and either leave at once or
store all fields; leaving makes it even again.  A reader loads all fields between two loads of the number.  Threads
are interleaved in any way.

* `Shape`          the fields in the order of their stores and loads;
* `Call`           a value to write, and what it may replace;
* `step`           one load or store of one thread;
* `Inv`            the invariant, `b` being half the first sequence number;
* `Inv.run`        every run keeps it;
* `Inv.snapshot`   a complete snapshot is one written value;
* `Only`           the calls that a run makes.

The number has `bits` bits; a fence is no step of its own here.
-/

set_option linter.unusedSectionVars false

namespace Seqlock

structure Shape (ι : Type) (bits : ℕ) where
  /-- the field that decides whether a write may go on -/
  gate : ι
  stored : List ι
  loaded : List ι
  tries : ℕ
  gate_stored : gate ∈ stored
  stored_loaded : ∀ i ∈ stored, i ∈ loaded
  wide : 0 < bits

variable {ι : Type} [DecidableEq ι] {F : ι → Type} {bits : ℕ} {k : Shape ι bits} {ω ρ : Type} [DecidableEq ω] [DecidableEq ρ]

structure Call (k : Shape ι bits) (F : ι → Type) where
  value : ∀ i, F i
  allowed : F k.gate → Bool
  /-- try again when another writer is in the way -/
  spins : Bool

inductive WriteResult where
  | written | contended | refused
  deriving DecidableEq

/-- the next load or store of a writer; `before` is what it found on entry -/
inductive WriterPc (k : Shape ι bits) (F : ι → Type) where
  | idle
  | loadSeq (c : Call k F)
  | swapSeq (c : Call k F) (q : BitVec bits)
  | loadGate (c : Call k F) (q : BitVec bits) (before : ∀ i, F i)
  | store (c : Call k F) (q : BitVec bits) (before : ∀ i, F i) (left : List ι)
  | leave (c : Call k F) (q : BitVec bits) (before : ∀ i, F i)

/-- the next load of a reader, with what it has loaded; `started` and `begun` are the completed calls when it began, and
when it began this try -/
inductive ReaderPc (bits : ℕ) (F : ι → Type) where
  | idle
  | loadSeq (tries : ℕ) (out : ∀ i, F i) (started : ℕ)
  | load (tries : ℕ) (a : BitVec bits) (out : ∀ i, F i) (left : List ι) (started begun : ℕ)

/-- a call that was inside -/
structure Finished (k : Shape ι bits) (F : ι → Type) where
  call : Call k F
  result : WriteResult
  before : ∀ i, F i
  after : ∀ i, F i

/-- what a read gave, and the calls that were completed during it -/
structure Snapshot (F : ι → Type) where
  ok : Bool
  out : ∀ i, F i
  calls : ℕ

structure State (k : Shape ι bits) (F : ι → Type) (ω ρ : Type) where
  seq : BitVec bits
  data : ∀ i, F i
  writer : ω → WriterPc k F
  reader : ρ → ReaderPc bits F
  /-- calls that were inside -/
  finished : List (Finished k F)
  /-- the value of the last written call -/
  current : ∀ i, F i
  snapshots : List (Snapshot F)

inductive Event (k : Shape ι bits) (F : ι → Type) (ω ρ : Type) where
  | call (w : ω) (c : Call k F)
  | write (w : ω)
  | read (r : ρ) (blank : ∀ i, F i)
  /-- a store to a field that the lock does not protect -/
  | touch (i : ι) (v : F i)

namespace State

/-- nothing has happened yet; the number is even -/
def start (b : ℕ) (value : ∀ i, F i) : State k F ω ρ where
  seq := BitVec.ofNat bits (2 * b)
  data := value
  writer := fun _ => .idle
  reader := fun _ => .idle
  finished := []
  current := value
  snapshots := []

variable (s : State k F ω ρ)

def moveWriter (w : ω) (p : WriterPc k F) : State k F ω ρ := { s with writer := Function.update s.writer w p }

def moveReader (r : ρ) (p : ReaderPc bits F) : State k F ω ρ := { s with reader := Function.update s.reader r p }

/-- another writer is in the way -/
def contended (w : ω) (c : Call k F) : State k F ω ρ := s.moveWriter w (if c.spins then .loadSeq c else .idle)

/-- the sequence number is even again -/
def release (w : ω) (q : BitVec bits) (f : Finished k F) : State k F ω ρ :=
  { s with
    seq := q + 2
    writer := Function.update s.writer w .idle
    finished := s.finished ++ [f]
    current := if f.result = .written then f.call.value else s.current }

def write (w : ω) : State k F ω ρ :=
  match s.writer w with
  | .idle => s
  | .loadSeq c => if s.seq.getLsbD 0 then s.contended w c else s.moveWriter w (.swapSeq c s.seq)
  | .swapSeq c q =>
    if s.seq = q then { s with seq := q + 1 }.moveWriter w (.loadGate c q s.data) else s.contended w c
  | .loadGate c q before =>
    s.moveWriter w (if c.allowed (s.data k.gate) then .store c q before k.stored else .leave c q before)
  | .store c q before (i :: left) =>
    { s with data := Function.update s.data i (c.value i) }.moveWriter w (.store c q before left)
  | .store c q before [] => s.release w q (Finished.mk c .written before s.data)
  | .leave c q before => s.release w q (Finished.mk c .refused before s.data)

/-- calls that were inside, so far -/
def completed : ℕ := s.finished.length

def answer (r : ρ) (x : Snapshot F) : State k F ω ρ :=
  { s.moveReader r .idle with snapshots := s.snapshots ++ [x] }

def read (r : ρ) (blank : ∀ i, F i) : State k F ω ρ :=
  match s.reader r with
  | .idle => s.moveReader r (.loadSeq k.tries blank s.completed)
  | .loadSeq 0 out started => s.answer r (Snapshot.mk false out (s.completed - started))
  | .loadSeq (n + 1) out started =>
    s.moveReader r (if s.seq.getLsbD 0 then .loadSeq n out started else .load n s.seq out k.loaded started s.completed)
  | .load n a out (i :: left) started begun => s.moveReader r (.load n a (Function.update out i (s.data i)) left started begun)
  | .load n a out [] started _ =>
    if s.seq = a then s.answer r (Snapshot.mk true out (s.completed - started)) else s.moveReader r (.loadSeq n out started)

def step : Event k F ω ρ → State k F ω ρ
  | .call w c =>
    match s.writer w with
    | .idle => s.moveWriter w (.loadSeq c)
    | _ => s
  | .write w => s.write w
  | .read r blank => s.read r blank
  | .touch i v => if i ∈ k.stored then s else { s with data := Function.update s.data i v }

end State

/-! ## the invariant -/

/-- between the swap and the last store -/
def WriterPc.Inside : WriterPc k F → Prop
  | .loadGate .. | .store .. | .leave .. => True
  | _ => False

/-- the same protected fields -/
def Agree (k : Shape ι bits) (d d' : ∀ i, F i) : Prop := ∀ i ∈ k.stored, d i = d' i

/-- a value that was there: the first one, or that of a written call -/
def Was (value : ∀ i, F i) (fs : List (Finished k F)) (v : ∀ i, F i) : Prop :=
  v = value ∨ ∃ f ∈ fs, f.result = .written ∧ v = f.call.value

/-- the calls one after the other: each finds what the one before it left, and a refused one leaves it as it is -/
def Replays (k : Shape ι bits) (v : ∀ i, F i) : List (Finished k F) → (∀ i, F i) → Prop
  | [], v' => v = v'
  | f :: fs, v' => Agree k f.before v ∧ Replays k (if f.result = .written then f.call.value else v) fs v'

namespace State

/-- some writer is inside -/
def Held (s : State k F ω ρ) : Prop := ∃ w, (s.writer w).Inside

/-- the number after so many calls -/
def number (bits b n : ℕ) : BitVec bits := BitVec.ofNat bits (2 * (b + n))

/-- what a writer knows -/
def WriterOk (b : ℕ) (s : State k F ω ρ) : WriterPc k F → Prop
  | .idle | .loadSeq _ => True
  | .swapSeq _ q => q.getLsbD 0 = false
  | .loadGate _ q before => q = number bits b s.completed ∧ Agree k s.data s.current ∧ Agree k before s.data
  | .store c q before left =>
    q = number bits b s.completed ∧ c.allowed (before k.gate) = true ∧ Agree k before s.current ∧
      ∀ i ∈ k.stored, i ∉ left → s.data i = c.value i
  | .leave c q before =>
    q = number bits b s.completed ∧ c.allowed (before k.gate) = false ∧ Agree k s.data s.current ∧ Agree k before s.data

/-- what a reader knows: while nobody has been inside since it began, it has what is there -/
def ReaderOk (b : ℕ) (s : State k F ω ρ) : ReaderPc bits F → Prop
  | .idle => True
  | .loadSeq _ _ started => started ≤ s.completed
  | .load _ a out left started begun =>
    a = number bits b begun ∧ started ≤ begun ∧ begun ≤ s.completed ∧
      (begun = s.completed → ¬ s.Held → ∀ i ∈ k.stored, i ∉ left → out i = s.data i)

end State

/-- what became of a call -/
structure Finished.Ok (f : Finished k F) : Prop where
  written : f.result = .written → f.call.allowed (f.before k.gate) = true ∧ Agree k f.after f.call.value
  refused : f.result = .refused → f.call.allowed (f.before k.gate) = false ∧ Agree k f.before f.after
  inside : f.result ≠ .contended

/-- a complete snapshot is a value that was there -/
def Snapshot.Ok (value : ∀ i, F i) (fs : List (Finished k F)) (x : Snapshot F) : Prop :=
  x.ok = true → x.calls < 2 ^ (bits - 1) → ∃ v, Was value fs v ∧ Agree k x.out v

open State in
structure Inv (b : ℕ) (value : ∀ i, F i) (s : State k F ω ρ) : Prop where
  alone : ∀ w w', (s.writer w).Inside → (s.writer w').Inside → w = w'
  even : ¬ s.Held → s.seq = number bits b s.completed ∧ Agree k s.data s.current
  odd : s.Held → s.seq = number bits b s.completed + 1
  writers : ∀ w, s.WriterOk b (s.writer w)
  readers : ∀ r, s.ReaderOk b (s.reader r)
  current : Was value s.finished s.current
  replays : Replays k value s.finished s.current
  finished : ∀ f ∈ s.finished, f.Ok
  snapshots : ∀ x ∈ s.snapshots, x.Ok value s.finished

/-! ## numbers -/

section
variable {b m n : ℕ}

theorem bit_zero_even (b n : ℕ) : (State.number bits b n).getLsbD 0 = false := by
  have hbit : (2 * (b + n)).testBit 0 = false := by
    rw [Nat.testBit_zero, Nat.mul_mod_right]
    rfl
  unfold State.number
  rw [BitVec.getLsbD_ofNat, hbit, Bool.and_false]

theorem bit_zero_odd (hw : 0 < bits) (b n : ℕ) : (State.number bits b n + 1).getLsbD 0 = true := by
  have hsum : State.number bits b n + 1 = BitVec.ofNat bits (2 * (b + n) + 1) := (BitVec.ofNat_add _ 1).symm
  have hbit : (2 * (b + n) + 1).testBit 0 = true := by
    rw [Nat.testBit_zero, Nat.mul_add_mod]
    rfl
  rw [hsum, BitVec.getLsbD_ofNat, hbit, Bool.and_true, decide_eq_true hw]

theorem number_succ (b n : ℕ) : State.number bits b n + 2 = State.number bits b (n + 1) := by
  have hsum : State.number bits b n + 2 = BitVec.ofNat bits (2 * (b + n) + 2) := (BitVec.ofNat_add _ 2).symm
  have heq : 2 * (b + n) + 2 = 2 * (b + (n + 1)) := by omega
  rw [hsum, heq]
  rfl

/-- the number tells the calls apart until it comes round -/
theorem number_inj (hw : 0 < bits) (hle : m ≤ n) (hlt : n - m < 2 ^ (bits - 1))
    (heq : State.number bits b n = State.number bits b m) : m = n := by
  have hmod := congrArg BitVec.toNat heq
  unfold State.number at hmod
  rw [BitVec.toNat_ofNat, BitVec.toNat_ofNat] at hmod
  have hpow : 2 ^ bits = 2 * 2 ^ (bits - 1) := by
    rw [← Nat.pow_succ', Nat.succ_eq_add_one, Nat.sub_add_cancel hw]
  rw [hpow, Nat.mul_mod_mul_left, Nat.mul_mod_mul_left] at hmod
  have hhalf : (b + n) % 2 ^ (bits - 1) = (b + m) % 2 ^ (bits - 1) := Nat.eq_of_mul_eq_mul_left (by decide) hmod
  have hdvd : 2 ^ (bits - 1) ∣ b + n - (b + m) := (Nat.modEq_iff_dvd' (by omega)).mp hhalf.symm
  have hzero := Nat.eq_zero_of_dvd_of_lt hdvd (by omega)
  omega

end

/-! ## what a step leaves alone -/

section
variable {b : ℕ} {value : ∀ i, F i} {s s' : State k F ω ρ} {w : ω} {r : ρ} {p : WriterPc k F} {pr : ReaderPc bits F} {c : Call k F}
  {q : BitVec bits} {before : ∀ i, F i}

open State

theorem Was.snoc {fs : List (Finished k F)} {v : ∀ i, F i} (h : Was value fs v) (f : Finished k F) : Was value (fs ++ [f]) v := by
  rcases h with rfl | ⟨g, hg, hw, rfl⟩
  · exact .inl rfl
  · exact .inr ⟨g, List.mem_append_left _ hg, hw, rfl⟩

theorem Replays.snoc {fs : List (Finished k F)} {v v' : ∀ i, F i} {f : Finished k F} (h : Replays k v fs v') (hf : Agree k f.before v') :
    Replays k v (fs ++ [f]) (if f.result = .written then f.call.value else v') := by
  induction fs generalizing v with
  | nil =>
    obtain rfl : v = v' := h
    exact ⟨hf, rfl⟩
  | cons g fs ih => exact ⟨h.1, ih h.2⟩

/-- a writer that is outside relies on nothing -/
theorem writerOk_outside (hp : ¬ p.Inside) (h : s.WriterOk b p) : s'.WriterOk b p := by
  cases p with
  | idle => trivial
  | loadSeq c => trivial
  | swapSeq c q => exact h
  | loadGate c q before => exact (hp trivial).elim
  | store c q before left => exact (hp trivial).elim
  | leave c q before => exact (hp trivial).elim

/-- a reader, while no call is completed -/
theorem readerOk_frame (hcompleted : s'.completed = s.completed)
    (hdata : ¬ s'.Held → ¬ s.Held ∧ Agree k s'.data s.data) (h : s.ReaderOk b pr) : s'.ReaderOk b pr := by
  cases pr with
  | idle => trivial
  | loadSeq n out started =>
    show started ≤ s'.completed
    rw [hcompleted]
    exact h
  | load n a out left started begun =>
    obtain ⟨ha, hstart, hbegun, hout⟩ := h
    refine ⟨ha, hstart, by rwa [hcompleted], fun heq hfree i hi hleft => ?_⟩
    obtain ⟨hfree', hsame⟩ := hdata hfree
    rw [hout (heq.trans hcompleted) hfree' i hi hleft, hsame i hi]

/-- a reader, when a call is completed -/
theorem readerOk_later (hcompleted : s.completed < s'.completed) (h : s.ReaderOk b pr) : s'.ReaderOk b pr := by
  cases pr with
  | idle => trivial
  | loadSeq n out started => exact (show started ≤ s.completed from h).trans hcompleted.le
  | load n a out left started begun =>
    obtain ⟨ha, hstart, hbegun, -⟩ := h
    exact ⟨ha, hstart, hbegun.trans hcompleted.le, fun heq => absurd heq (by omega)⟩

/-! ## writers -/

theorem moved_writer (s : State k F ω ρ) (w : ω) (p : WriterPc k F) : (s.moveWriter w p).writer w = p := Function.update_self ..

theorem moved_other (s : State k F ω ρ) {w w' : ω} (h : w' ≠ w) (p : WriterPc k F) :
    (s.moveWriter w p).writer w' = s.writer w' := Function.update_of_ne h ..

/-- being inside is as before -/
theorem moved_inside (hp : p.Inside ↔ (s.writer w).Inside) (w' : ω) :
    ((s.moveWriter w p).writer w').Inside ↔ (s.writer w').Inside := by
  rcases eq_or_ne w' w with rfl | hne
  · rw [moved_writer]
    exact hp
  · rw [moved_other s hne]

theorem moved_held (hp : p.Inside ↔ (s.writer w).Inside) : (s.moveWriter w p).Held ↔ s.Held :=
  exists_congr (moved_inside hp)

/-- a writer moves on, neither in nor out -/
theorem Inv.moved (h : Inv b value s) (hp : p.Inside ↔ (s.writer w).Inside) (hok : s.WriterOk b p) :
    Inv b value (s.moveWriter w p) where
  alone := fun w₁ w₂ h₁ h₂ => h.alone w₁ w₂ ((moved_inside hp w₁).mp h₁) ((moved_inside hp w₂).mp h₂)
  even := fun hfree => h.even fun hheld => hfree ((moved_held hp).mpr hheld)
  odd := fun hheld => h.odd ((moved_held hp).mp hheld)
  writers := by
    intro w'
    rcases eq_or_ne w' w with rfl | hne
    · rw [moved_writer]
      exact hok
    · rw [moved_other s hne]
      exact h.writers w'
  readers := fun r => readerOk_frame (s := s) rfl (fun hfree => ⟨fun hheld => hfree ((moved_held hp).mpr hheld), fun _ _ => rfl⟩) (h.readers r)
  current := h.current
  replays := h.replays
  finished := h.finished
  snapshots := h.snapshots

theorem Inv.contended (h : Inv b value s) (hout : ¬ (s.writer w).Inside) (c : Call k F) : Inv b value (s.contended w c) := by
  unfold State.contended
  split_ifs
  · exact h.moved (iff_of_false id hout) trivial
  · exact h.moved (iff_of_false id hout) trivial

/-- an even number: nobody is inside -/
theorem Inv.free (h : Inv b value s) (heven : s.seq.getLsbD 0 = false) : ¬ s.Held := by
  intro hheld
  rw [h.odd hheld, bit_zero_odd k.wide] at heven
  cases heven

/-- in -/
theorem Inv.entered (h : Inv b value s) (hw : s.writer w = .swapSeq c s.seq) :
    Inv b value ({ s with seq := s.seq + 1 }.moveWriter w (.loadGate c s.seq s.data)) := by
  have heven : s.seq.getLsbD 0 = false := by
    have hknown := h.writers w
    rw [hw] at hknown
    exact hknown
  have hfree := h.free heven
  obtain ⟨hseq, hcurrent⟩ := h.even hfree
  have hout : ∀ w', ¬ (s.writer w').Inside := fun w' hin => hfree ⟨w', hin⟩
  have hinside : ∀ w', (({ s with seq := s.seq + 1 }.moveWriter w (.loadGate c s.seq s.data)).writer w').Inside → w' = w := by
    intro w' hin
    by_contra hne
    rw [moved_other _ hne] at hin
    exact hout w' hin
  have hheld : ({ s with seq := s.seq + 1 }.moveWriter w (.loadGate c s.seq s.data)).Held := ⟨w, by rw [moved_writer]; trivial⟩
  refine ⟨fun w₁ w₂ h₁ h₂ => (hinside w₁ h₁).trans (hinside w₂ h₂).symm, fun hno => (hno hheld).elim, fun _ => ?_, ?_,
    fun r => readerOk_frame (s := s) rfl (fun hno => (hno hheld).elim) (h.readers r), h.current, h.replays, h.finished, h.snapshots⟩
  · show s.seq + 1 = number bits b s.completed + 1
    rw [hseq]
  · intro w'
    rcases eq_or_ne w' w with rfl | hne
    · rw [moved_writer]
      exact ⟨hseq, hcurrent, fun _ _ => rfl⟩
    · rw [moved_other _ hne]
      exact writerOk_outside (hout w') (h.writers w')

/-- one store -/
theorem Inv.stored {i : ι} {left : List ι} (h : Inv b value s) (hw : s.writer w = .store c q before (i :: left)) :
    Inv b value ({ s with data := Function.update s.data i (c.value i) }.moveWriter w (.store c q before left)) := by
  have hin : (s.writer w).Inside := by
    rw [hw]
    trivial
  have hsame : ∀ w', (({ s with data := Function.update s.data i (c.value i) }.moveWriter w (.store c q before left)).writer w').Inside ↔
      (s.writer w').Inside := moved_inside (s := { s with data := _ }) (iff_of_true trivial hin)
  have hheld : ({ s with data := Function.update s.data i (c.value i) }.moveWriter w (.store c q before left)).Held := ⟨w, (hsame w).mpr hin⟩
  have hknown := h.writers w
  rw [hw] at hknown
  obtain ⟨hq, hallowed, hbefore, hdone⟩ := hknown
  refine ⟨fun w₁ w₂ h₁ h₂ => h.alone w₁ w₂ ((hsame w₁).mp h₁) ((hsame w₂).mp h₂), fun hno => (hno hheld).elim,
    fun _ => h.odd ⟨w, hin⟩, ?_, fun r => readerOk_frame (s := s) rfl (fun hno => (hno hheld).elim) (h.readers r), h.current, h.replays, h.finished, h.snapshots⟩
  intro w'
  rcases eq_or_ne w' w with rfl | hne
  · rw [moved_writer]
    refine ⟨hq, hallowed, hbefore, fun j hj hleft => ?_⟩
    show Function.update s.data i (c.value i) j = c.value j
    rcases eq_or_ne j i with rfl | hji
    · rw [Function.update_self]
    · rw [Function.update_of_ne hji]
      refine hdone j hj fun hmem => ?_
      rcases List.mem_cons.mp hmem with rfl | hmem
      · exact hji rfl
      · exact hleft hmem
  · rw [moved_other _ hne]
    exact writerOk_outside (fun hin' => hne (h.alone w' w hin' hin)) (h.writers w')

/-- out, with a new value or with the old one -/
theorem Inv.released {f : Finished k F} (h : Inv b value s) (hin : (s.writer w).Inside) (hq : q = number bits b s.completed)
    (hf : f.Ok) (hbefore : Agree k f.before s.current)
    (hdata : Agree k s.data (if f.result = .written then f.call.value else s.current)) :
    Inv b value (s.release w q f) := by
  have hout : ∀ w', ¬ ((s.release w q f).writer w').Inside := by
    intro w' hin'
    rcases eq_or_ne w' w with rfl | hne
    · change (Function.update s.writer w' .idle w').Inside at hin'
      rw [Function.update_self] at hin'
      exact hin'
    · change (Function.update s.writer w .idle w').Inside at hin'
      rw [Function.update_of_ne hne] at hin'
      exact hne (h.alone w' w hin' hin)
  have hcompleted : (s.release w q f).completed = s.completed + 1 := List.length_append
  refine ⟨fun w₁ _ h₁ => (hout w₁ h₁).elim, fun _ => ⟨?_, hdata⟩, fun ⟨w', hw'⟩ => (hout w' hw').elim, ?_,
    fun r => readerOk_later (by omega) (h.readers r), ?_, h.replays.snoc hbefore, ?_, ?_⟩
  · show q + 2 = _
    rw [hcompleted, hq, number_succ]
  · intro w'
    rcases eq_or_ne w' w with rfl | hne
    · have hidle : (s.release w' q f).writer w' = .idle := Function.update_self ..
      rw [hidle]
      trivial
    · have hother : (s.release w q f).writer w' = s.writer w' := Function.update_of_ne hne ..
      rw [hother]
      exact writerOk_outside (fun hin' => hne (h.alone w' w hin' hin)) (h.writers w')
  · show Was value (s.finished ++ [f]) (if f.result = .written then f.call.value else s.current)
    split_ifs with hresult
    · exact .inr ⟨f, List.mem_append_right _ (List.mem_singleton.mpr rfl), hresult, rfl⟩
    · exact h.current.snoc f
  · intro g hg
    rcases List.mem_append.mp hg with hg | hg
    · exact h.finished g hg
    · obtain rfl := List.mem_singleton.mp hg
      exact hf
  · intro x hx hok hcalls
    obtain ⟨v, hv, hagree⟩ := h.snapshots x hx hok hcalls
    exact ⟨v, hv.snoc f, hagree⟩

theorem Inv.write (h : Inv b value s) (w : ω) : Inv b value (s.write w) := by
  have hknown := h.writers w
  unfold State.write
  cases hw : s.writer w with
  | idle => exact h
  | loadSeq c =>
    have hout : ¬ (s.writer w).Inside := by
      rw [hw]
      exact id
    dsimp only
    split_ifs with hodd
    · exact h.contended hout c
    · exact h.moved (iff_of_false id hout) (Bool.eq_false_iff.mpr hodd)
  | swapSeq c q =>
    have hout : ¬ (s.writer w).Inside := by
      rw [hw]
      exact id
    dsimp only
    split_ifs with heq
    · subst heq
      exact h.entered hw
    · exact h.contended hout c
  | loadGate c q before =>
    have hin : (s.writer w).Inside := by
      rw [hw]
      trivial
    rw [hw] at hknown
    obtain ⟨hq, hcurrent, hbefore⟩ := hknown
    dsimp only
    rw [← hbefore k.gate k.gate_stored]
    split_ifs with hallowed
    · exact h.moved (iff_of_true trivial hin)
        ⟨hq, hallowed, fun i hi => (hbefore i hi).trans (hcurrent i hi), fun i hi hleft => (hleft hi).elim⟩
    · exact h.moved (iff_of_true trivial hin) ⟨hq, Bool.eq_false_iff.mpr hallowed, hcurrent, hbefore⟩
  | store c q before left =>
    cases left with
    | cons i left => exact h.stored hw
    | nil =>
      have hin : (s.writer w).Inside := by
        rw [hw]
        trivial
      rw [hw] at hknown
      obtain ⟨hq, hallowed, hbefore, hdone⟩ := hknown
      have hvalue : Agree k s.data c.value := fun i hi => hdone i hi List.not_mem_nil
      exact h.released hin hq ⟨fun _ => ⟨hallowed, hvalue⟩, fun hno => (by cases hno), fun hno => (by cases hno)⟩ hbefore hvalue
  | leave c q before =>
    have hin : (s.writer w).Inside := by
      rw [hw]
      trivial
    rw [hw] at hknown
    obtain ⟨hq, hallowed, hcurrent, hbefore⟩ := hknown
    exact h.released hin hq ⟨fun hno => (by cases hno), fun _ => ⟨hallowed, hbefore⟩, fun hno => (by cases hno)⟩
      (fun i hi => (hbefore i hi).trans (hcurrent i hi)) hcurrent

/-! ## readers -/

theorem Inv.readerMoved (h : Inv b value s) (hok : s.ReaderOk b pr) : Inv b value (s.moveReader r pr) where
  alone := h.alone
  even := h.even
  odd := h.odd
  writers := h.writers
  readers := by
    intro r'
    rcases eq_or_ne r' r with rfl | hne
    · show ReaderOk b s (Function.update s.reader r' pr r')
      rw [Function.update_self]
      exact hok
    · show ReaderOk b s (Function.update s.reader r pr r')
      rw [Function.update_of_ne hne]
      exact h.readers r'
  current := h.current
  replays := h.replays
  finished := h.finished
  snapshots := h.snapshots

theorem Inv.answered {x : Snapshot F} (h : Inv b value s) (hx : x.Ok value s.finished) : Inv b value (s.answer r x) := by
  have hmoved : Inv b value (s.moveReader r .idle) := h.readerMoved trivial
  refine ⟨hmoved.alone, hmoved.even, hmoved.odd, hmoved.writers, hmoved.readers, hmoved.current, hmoved.replays, hmoved.finished, ?_⟩
  intro y hy
  rcases List.mem_append.mp hy with hy | hy
  · exact h.snapshots y hy
  · obtain rfl := List.mem_singleton.mp hy
    exact hx

/-- **The second load finds the number of the first**: nothing was written between them -/
theorem Inv.snapshot {n started begun : ℕ} {a : BitVec bits} {out : ∀ i, F i} (h : Inv b value s)
    (hr : s.ReaderOk b (.load n a out [] started begun)) (heq : s.seq = a) :
    (Snapshot.mk true out (s.completed - started)).Ok value s.finished := by
  intro _ hcalls
  obtain ⟨ha, hstart, hbegun, hout⟩ := hr
  have hfree : ¬ s.Held := by
    refine h.free ?_
    rw [heq, ha, bit_zero_even]
  obtain ⟨hseq, hcurrent⟩ := h.even hfree
  have hsame : begun = s.completed := by
    refine number_inj k.wide hbegun ?_ (hseq.symm.trans (heq.trans ha))
    exact lt_of_le_of_lt (Nat.sub_le_sub_left hstart _) hcalls
  exact ⟨s.current, h.current, fun i hi => (hout hsame hfree i hi List.not_mem_nil).trans (hcurrent i hi)⟩

theorem Inv.read (h : Inv b value s) (r : ρ) (blank : ∀ i, F i) : Inv b value (s.read r blank) := by
  have hknown := h.readers r
  unfold State.read
  cases hr : s.reader r with
  | idle => exact h.readerMoved (le_refl s.completed)
  | loadSeq tries out started =>
    rw [hr] at hknown
    cases tries with
    | zero => exact h.answered fun hok => by cases hok
    | succ n =>
      dsimp only
      split_ifs with hodd
      · exact h.readerMoved hknown
      · have heven : s.seq.getLsbD 0 = false := Bool.eq_false_iff.mpr hodd
        refine h.readerMoved ⟨(h.even (h.free heven)).1, hknown, le_rfl, fun _ _ i hi hleft => ?_⟩
        exact (hleft (k.stored_loaded i hi)).elim
  | load n a out left started begun =>
    rw [hr] at hknown
    cases left with
    | nil =>
      dsimp only
      split_ifs with heq
      · exact h.answered (h.snapshot hknown heq)
      · exact h.readerMoved (hknown.2.1.trans hknown.2.2.1)
    | cons i left =>
      obtain ⟨ha, hstart, hbegun, hout⟩ := hknown
      refine h.readerMoved ⟨ha, hstart, hbegun, fun heq hfree j hj hleft => ?_⟩
      rcases eq_or_ne j i with rfl | hne
      · rw [Function.update_self]
      · rw [Function.update_of_ne hne]
        refine hout heq hfree j hj fun hmem => ?_
        rcases List.mem_cons.mp hmem with rfl | hmem
        · exact hne rfl
        · exact hleft hmem

/-! ## runs -/

/-- a field that the lock does not protect -/
theorem Inv.touched {i : ι} (h : Inv b value s) (hi : i ∉ k.stored) (v : F i) :
    Inv b value { s with data := Function.update s.data i v } := by
  have hsame : Agree k (Function.update s.data i v) s.data := by
    intro j hj
    rw [Function.update_of_ne]
    rintro rfl
    exact hi hj
  have hto : ∀ {d : ∀ i, F i}, Agree k s.data d → Agree k (Function.update s.data i v) d := fun hd j hj => (hsame j hj).trans (hd j hj)
  have hfrom : ∀ {d : ∀ i, F i}, Agree k d s.data → Agree k d (Function.update s.data i v) :=
    fun hd j hj => (hd j hj).trans (hsame j hj).symm
  refine ⟨h.alone, fun hfree => ⟨(h.even hfree).1, hto (h.even hfree).2⟩, h.odd, fun w => ?_,
    fun r => readerOk_frame (s := s) rfl (fun hfree => ⟨hfree, hsame⟩) (h.readers r), h.current, h.replays, h.finished, h.snapshots⟩
  have hknown := h.writers w
  show WriterOk b _ (s.writer w)
  generalize s.writer w = p at hknown
  cases p with
  | idle => trivial
  | loadSeq c => trivial
  | swapSeq c q => exact hknown
  | loadGate c q before => exact ⟨hknown.1, hto hknown.2.1, hfrom hknown.2.2⟩
  | store c q before left => exact ⟨hknown.1, hknown.2.1, hknown.2.2.1, fun j hj hleft => (hsame j hj).trans (hknown.2.2.2 j hj hleft)⟩
  | leave c q before => exact ⟨hknown.1, hknown.2.1, hto hknown.2.2.1, hfrom hknown.2.2.2⟩

theorem Inv.step (h : Inv b value s) (e : Event k F ω ρ) : Inv b value (s.step e) := by
  cases e with
  | call w c =>
    unfold State.step
    dsimp only
    split
    next hw => exact h.moved (iff_of_false id (by rw [hw]; exact id)) trivial
    next => exact h
  | write w => exact h.write w
  | read r blank => exact h.read r blank
  | touch i v =>
    unfold State.step
    dsimp only
    split_ifs with hi
    · exact h
    · exact h.touched hi v

theorem Inv.start (k : Shape ι bits) (ω ρ : Type) (b : ℕ) (value : ∀ i, F i) :
    Inv b value (State.start b value : State k F ω ρ) where
  alone := fun _ _ h => h.elim
  even := fun _ => ⟨rfl, fun _ _ => rfl⟩
  odd := fun ⟨_, h⟩ => h.elim
  writers := fun _ => trivial
  readers := fun _ => trivial
  current := .inl rfl
  replays := rfl
  finished := fun _ h => absurd h List.not_mem_nil
  snapshots := fun _ h => absurd h List.not_mem_nil

/-- **Every run** -/
theorem Inv.run (k : Shape ι bits) (b : ℕ) (value : ∀ i, F i) (es : List (Event k F ω ρ)) :
    Inv b value (Run.run State.step (State.start b value : State k F ω ρ) es) :=
  Run.invariant (C := fun _ _ => True) (Inv.start k ω ρ b value) (fun _ e _ h => h.step e)
    (Run.along_of_forall (fun _ _ => trivial) es)

/-! ## which calls there are -/

/-- the call that a writer is in -/
def WriterPc.call? : WriterPc k F → Option (Call k F)
  | .idle => none
  | .loadSeq c | .swapSeq c _ | .loadGate c _ _ | .store c _ _ _ | .leave c _ _ => some c

/-- every call is one of some kind -/
structure Only (P : Call k F → Prop) (s : State k F ω ρ) : Prop where
  called : ∀ w c, (s.writer w).call? = some c → P c
  finished : ∀ f ∈ s.finished, P f.call

variable {P : Call k F → Prop}

theorem Only.moved (h : Only P s) (hp : ∀ c, p.call? = some c → P c) : Only P (s.moveWriter w p) := by
  refine ⟨fun w' c' hc => ?_, h.finished⟩
  rcases eq_or_ne w' w with rfl | hne
  · rw [moved_writer] at hc
    exact hp c' hc
  · rw [moved_other s hne] at hc
    exact h.called w' c' hc

theorem Only.released {f : Finished k F} (h : Only P s) (hf : P f.call) : Only P (s.release w q f) := by
  have hidle : Only P (s.moveWriter w .idle) := h.moved fun c hc => by cases hc
  refine ⟨hidle.called, fun g hg => ?_⟩
  rcases List.mem_append.mp hg with hg | hg
  · exact h.finished g hg
  · obtain rfl := List.mem_singleton.mp hg
    exact hf

theorem Only.contended (h : Only P s) (hc : P c) : Only P (s.contended w c) := by
  unfold State.contended
  split_ifs
  · exact h.moved fun c' h' => Option.some.inj h' ▸ hc
  · exact h.moved fun c' h' => by cases h'

theorem Only.write (h : Only P s) (w : ω) : Only P (s.write w) := by
  have hcall := h.called w
  unfold State.write
  cases hw : s.writer w with
  | idle => exact h
  | loadSeq c =>
    have hc : P c := hcall c (by rw [hw]; rfl)
    dsimp only
    split_ifs
    · exact h.contended hc
    · exact h.moved fun c' h' => Option.some.inj h' ▸ hc
  | swapSeq c q =>
    have hc : P c := hcall c (by rw [hw]; rfl)
    dsimp only
    split_ifs
    · exact Only.moved (s := { s with seq := q + 1 }) ⟨h.called, h.finished⟩ fun c' h' => Option.some.inj h' ▸ hc
    · exact h.contended hc
  | loadGate c q before =>
    have hc : P c := hcall c (by rw [hw]; rfl)
    dsimp only
    split_ifs
    · exact h.moved fun c' h' => Option.some.inj h' ▸ hc
    · exact h.moved fun c' h' => Option.some.inj h' ▸ hc
  | store c q before left =>
    have hc : P c := hcall c (by rw [hw]; rfl)
    cases left with
    | nil => exact h.released hc
    | cons i left =>
      exact Only.moved (s := { s with data := Function.update s.data i (c.value i) }) ⟨h.called, h.finished⟩
        fun c' h' => Option.some.inj h' ▸ hc
  | leave c q before => exact h.released (hcall c (by rw [hw]; rfl))

theorem Only.read (h : Only P s) (r : ρ) (blank : ∀ i, F i) : Only P (s.read r blank) := by
  have hsame : ∀ {s' : State k F ω ρ}, s'.writer = s.writer → s'.finished = s.finished → Only P s' := fun hw hf =>
    ⟨fun w c hc => h.called w c (hw ▸ hc), fun f hmem => h.finished f (hf ▸ hmem)⟩
  unfold State.read
  cases s.reader r with
  | idle => exact hsame rfl rfl
  | loadSeq tries out started =>
    cases tries with
    | zero => exact hsame rfl rfl
    | succ n => exact hsame rfl rfl
  | load n a out left started begun =>
    cases left with
    | nil =>
      dsimp only
      split_ifs
      · exact hsame rfl rfl
      · exact hsame rfl rfl
    | cons i left => exact hsame rfl rfl

theorem Only.step (h : Only P s) {e : Event k F ω ρ} (he : ∀ w c, e = .call w c → P c) : Only P (s.step e) := by
  cases e with
  | call w c =>
    unfold State.step
    dsimp only
    split
    · exact h.moved fun c' h' => Option.some.inj h' ▸ he w c rfl
    · exact h
  | write w => exact h.write w
  | read r blank => exact h.read r blank
  | touch i v =>
    unfold State.step
    dsimp only
    split_ifs
    · exact h
    · exact ⟨h.called, h.finished⟩

theorem Only.run (b : ℕ) (value : ∀ i, F i) {es : List (Event k F ω ρ)} (hes : ∀ w c, Event.call w c ∈ es → P c) :
    Only P (Run.run State.step (State.start b value : State k F ω ρ) es) := by
  induction es using List.reverseRecOn with
  | nil => exact ⟨fun w c hc => (by cases hc), fun f hf => absurd hf List.not_mem_nil⟩
  | append_singleton es e ih =>
    rw [Run.run_snoc]
    refine Only.step (ih fun w c hmem => hes w c (List.mem_append_left _ hmem)) fun w c he => ?_
    exact hes w c (he ▸ List.mem_append_right _ (List.mem_singleton.mpr rfl))

end

end Seqlock
